import ProbeWeave.Graph.Basic
import ProbeWeave.Syntax.Call
import ProbeWeave.Text.Glob

/-!
# What a call graph is built from

A program gives the body of each routine and tells which routine a call runs. A call is kept if its
routine can be told, is the program's own and is not left out; the graph of a routine follows the
calls that are kept.
-/

namespace ProbeWeave.Graph

open Syntax

/-! ### Routines that are left out

Wildcard patterns name the routines that are never timed. A pattern is tried against the bare
name of a routine, against its qualified name and against its full name. -/

/-- Whether one of the patterns stands for a name of the routine. -/
def Routine.matchesAny (r : Routine) (patterns : List String) : Bool :=
  patterns.any fun pattern =>
    [r.name, r.qualifiedName, r.fullName].any (Text.globMatches pattern)

/-- What is left out unless patterns are given: logging, and how a program starts itself. -/
def defaultExclusions : List String :=
  ["*LogService.*", "*Logger.*", "main", "__main__.*"]

/-! ### Programs -/

/-- A program as its call graph sees it. To tell the routine of a call can fail. -/
structure ProgramModel (ε : Type) where
  /-- The routines that calls can run. -/
  routines : List Routine
  /-- The body of a routine. -/
  body : Routine → List Stmt
  /-- The routine that a call in a routine runs, as far as that can be told. -/
  target? : Routine → Call → Except ε (Option Routine)
  /-- Whether a routine is the program's own. -/
  owns : Routine → Bool
  target_mem : ∀ {r : Routine} {call : Call} {t : Routine},
    target? r call = .ok (some t) → t ∈ routines

namespace ProgramModel

variable {ε : Type}

/-- Whether calls of a routine are kept. -/
def keeps (m : ProgramModel ε) (exclusions : List String) (r : Routine) : Bool :=
  m.owns r && !r.matchesAny exclusions

/-- The routine that a call runs, if the call is kept. -/
def keptTarget? (m : ProgramModel ε) (exclusions : List String) (r : Routine) (call : Call) :
    Except ε (Option Routine) := do
  return (← m.target? r call).filter (m.keeps exclusions)

/-- The routines that a routine calls, one for each call that is kept. -/
def callees (m : ProgramModel ε) (exclusions : List String) (r : Routine) :
    Except ε (List Routine) := do
  let targets ← (calls (m.body r)).mapM (m.keptTarget? exclusions r)
  return targets.filterMap id

/-- The routines that a routine calls; none where they cannot be told. -/
def calleesOrNone (m : ProgramModel ε) (exclusions : List String) (r : Routine) : List Routine :=
  (m.callees exclusions r).toOption.getD []

/-- The call graph of a routine. What cannot be told of a routine in it ends the search. -/
def callGraph (m : ProgramModel ε) (exclusions : List String) (recursive : Bool)
    (entry : Routine) : Except ε CallTree := do
  let callees := m.calleesOrNone exclusions
  let graph :=
    if recursive then CallTree.reach callees m.routines.length entry
    else CallTree.direct callees entry
  (if recursive then graph.routines else [entry]).forM fun r =>
    discard (m.callees exclusions r)
  return graph

end ProgramModel

end ProbeWeave.Graph
