/-!
# Routines and call graphs

A routine is known by its module and by its place among the definitions of that module, so two
definitions of one name stay apart. A call graph is a tree: a node is a routine with one child
for each call that was followed, in the order of the calls.
-/

namespace ProbeWeave.Graph

/-- A function or a method of a project. -/
structure Routine where
  module : String
  /-- The place of the definition among those of its module. -/
  ordinal : Nat
  /-- The class that declares a method. -/
  owner : Option String
  name : String
  /-- The line of the definition. -/
  line : Nat
  deriving DecidableEq, Inhabited, Repr

namespace Routine

/-- The name within the module: a method is qualified by its class. -/
def qualifiedName (r : Routine) : String :=
  match r.owner with
  | some owner => owner ++ "." ++ r.name
  | none => r.name

/-- The name within the project. -/
def fullName (r : Routine) : String :=
  r.module ++ "." ++ r.qualifiedName

/-- The scope that declares a routine: its module, or its class there. -/
def scopeName (r : Routine) : String :=
  match r.owner with
  | some owner => r.module ++ "." ++ owner
  | none => r.module

end Routine

/-- A node of a call graph with the nodes of the calls followed from it. -/
inductive CallTree where
  | node (routine : Routine) (children : List CallTree)

instance : Inhabited CallTree := ⟨.node default []⟩

namespace CallTree

/-- The routine a node stands for. -/
def routine : CallTree → Routine
  | node routine _ => routine

/-- The nodes of the calls followed. -/
def children : CallTree → List CallTree
  | node _ children => children

mutual

/-- A node and everything below it, in the order in which the calls are followed. -/
def walk : CallTree → List CallTree
  | node routine children => node routine children :: walkAll children

/-- The nodes at and below several ones. -/
def walkAll : List CallTree → List CallTree
  | [] => []
  | t :: ts => walk t ++ walkAll ts

end

mutual

/-- The number of levels. -/
def depth : CallTree → Nat
  | node _ children => 1 + depthAll children

/-- The largest number of levels of several trees. -/
def depthAll : List CallTree → Nat
  | [] => 0
  | t :: ts => max (depth t) (depthAll ts)

end

/-- The elements of a list without repetitions, each where it occurs first. -/
def distinct {α : Type} [BEq α] : List α → List α
  | [] => []
  | a :: as => a :: (distinct as).filter (· != a)

/-- The routines of a graph, each where it occurs first. -/
def routines (t : CallTree) : List Routine :=
  distinct (t.walk.map routine)

/-! ### Building a graph

The graph of an entry routine follows calls depth first. A routine is followed where it is met
first; met again it is a leaf, which ends recursion. A graph can also be cut behind the calls of
the entry routine itself. -/

/-- Follows routines one after the other. -/
def followEach (follow : List Routine → Routine → CallTree × List Routine)
    (visited : List Routine) : List Routine → List CallTree × List Routine
  | [] => ([], visited)
  | r :: rest =>
    let (first, visited) := follow visited r
    let (others, visited) := followEach follow visited rest
    (first :: others, visited)

/--
The node of a routine, and the routines visited then. The bound is on the length of chains of
calls; along a chain every routine but the last is visited for the first time.
-/
def follow (callees : Routine → List Routine) :
    Nat → List Routine → Routine → CallTree × List Routine
  | 0, visited, r => (node r [], visited)
  | bound + 1, visited, r =>
    if visited.contains r then (node r [], visited)
    else
      let (children, visited) := followEach (follow callees bound) (r :: visited) (callees r)
      (node r children, visited)

/-- The graph of a routine, given a bound on the number of routines. -/
def reach (callees : Routine → List Routine) (count : Nat) (entry : Routine) : CallTree :=
  (follow callees (count + 1) [] entry).1

/-- The graph of a routine and its direct calls. -/
def direct (callees : Routine → List Routine) (entry : Routine) : CallTree :=
  node entry ((callees entry).map fun r => node r [])

/-! ### The outline of a graph

A graph is shown as one line per routine call, indented by depth. A routine that was shown
before is marked, and what it calls is not shown again. -/

/-- The line of a routine at a depth. -/
def outlineLine (r : Routine) (repeated : Bool) (depth : Nat) : String :=
  String.join (List.replicate (depth - 1) "    ") ++ (if depth == 0 then "" else "|-- ") ++
    r.qualifiedName ++ (if repeated then " (*)" else "")

mutual

/-- The lines of a graph at a depth, and the routines shown so far. -/
def outlineFrom (seen : List Routine) (depth : Nat) : CallTree → List String × List Routine
  | node routine children =>
    let repeated := seen.contains routine
    let line := outlineLine routine repeated depth
    let seen := routine :: seen
    if repeated then ([line], seen)
    else
      let (lines, seen) := outlineAll seen (depth + 1) children
      (line :: lines, seen)

/-- The lines of several graphs at a depth. -/
def outlineAll (seen : List Routine) (depth : Nat) : List CallTree → List String × List Routine
  | [] => ([], seen)
  | t :: ts =>
    let (first, seen) := outlineFrom seen depth t
    let (others, seen) := outlineAll seen depth ts
    (first ++ others, seen)

end

/-- The lines of a graph. -/
def outline (t : CallTree) : List String :=
  (outlineFrom [] 0 t).1

end CallTree

end ProbeWeave.Graph
