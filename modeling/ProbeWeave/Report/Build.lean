import ProbeWeave.Graph.Model
import ProbeWeave.Probe.Registry
import ProbeWeave.Report.Line

/-!
# The lines of a report

The lines follow the call graph: the line of a routine stands where the routine is first called,
one level deeper than its caller's, and the loops of a routine follow everything it calls. The
entry routine has no line of its own; its loops come last.
-/

namespace ProbeWeave.Report

open Graph Probe

/-- What the lines are made from. -/
structure Outfit where
  registry : Registry
  /-- Patterns of routines without a line. -/
  exclusions : List String
  /-- The loop probes that are shown. -/
  loops : List LoopProbe

namespace Outfit

/-- The names that lead to a probe within the home. -/
def probeRef (o : Outfit) (probe : String) : String :=
  ".".intercalate (o.registry.home.reference o.registry.home.module "" ++ [probe])

/-- The line of a routine, if it has one. -/
def methodLine (o : Outfit) (r : Routine) (depth : Nat) : List Line :=
  match o.registry.probeFor? r with
  | some probe =>
    if r.matchesAny o.exclusions then []
    else [⟨depth, .method, r.qualifiedName, o.probeRef probe.name⟩]
  | none => []

/-- The lines of the loops of a routine. -/
def loopLines (o : Outfit) (r : Routine) (depth : Nat) : List Line :=
  (o.loops.filter (·.routine == r)).map fun loop =>
    ⟨depth, .loop, loop.name, o.probeRef loop.name⟩

mutual

/-- The lines of a graph at a depth, and the routines met so far. -/
def linesFrom (o : Outfit) (seen : List Routine) (depth : Nat) :
    CallTree → List Line × List Routine
  | .node routine children =>
    if seen.contains routine then linesAll o seen (depth + 1) children
    else
      let (lines, seen) := linesAll o (routine :: seen) (depth + 1) children
      (o.methodLine routine depth ++ lines ++ o.loopLines routine (depth + 1), seen)

/-- The lines of several graphs at a depth. -/
def linesAll (o : Outfit) (seen : List Routine) (depth : Nat) :
    List CallTree → List Line × List Routine
  | [] => ([], seen)
  | t :: ts =>
    let (first, seen) := linesFrom o seen depth t
    let (others, seen) := linesAll o seen depth ts
    (first ++ others, seen)

end

/-- The lines of the report of a graph. -/
def lines (o : Outfit) (graph : CallTree) : List Line :=
  (o.linesAll [graph.routine] 1 graph.children).1 ++ o.loopLines graph.routine 1

end Outfit

/-- The lines of the report of a graph, with all loops of the registry. -/
def build (exclusions : List String) (registry : Registry) (graph : CallTree) : List Line :=
  Outfit.lines ⟨registry, exclusions, registry.loops⟩ graph

end ProbeWeave.Report
