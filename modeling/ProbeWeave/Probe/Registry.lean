import ProbeWeave.Graph.Basic

/-!
# Probes and where they are declared

Every routine that a call graph reaches by a call has a probe, and so has every loop that is
timed. All probes are fields of one scope, the home: the class of the entry routine, or its
module if the routine is in no class. Routine probes and loop probes are numbered apart, in the
order in which they are allocated.
-/

namespace ProbeWeave.Probe

open Graph

/-- The scope that declares the probes: a module, or a class in it. -/
structure Home where
  module : String
  owner : Option String
  deriving DecidableEq, Inhabited, Repr

namespace Home

/-- The names in front of a probe where it is used in a module. -/
def reference (home : Home) (inModule : String) (homeName : String) : List String :=
  (if inModule == home.module then [] else [homeName]) ++ home.owner.toList

/-- The home as it is shown. -/
def displayName (home : Home) : String :=
  match home.owner with
  | some owner => home.module ++ "." ++ owner
  | none => home.module

end Home

/-- Whether a character may stand in the name of a probe. -/
def isProbeChar (c : Char) : Bool :=
  c.isAlphanum || c == '_'

/-- The letters, digits and underscores of a name, those of ASCII only. -/
def sanitize (name : String) : String :=
  String.ofList (name.toList.filter isProbeChar)

/-- The probe of a routine. -/
structure RoutineProbe where
  name : String
  routine : Routine
  deriving DecidableEq, Inhabited, Repr

/-- The probe of a loop, with the routine and the line of the loop. -/
structure LoopProbe where
  name : String
  routine : Routine
  line : Nat
  deriving DecidableEq, Inhabited, Repr

/-- The probes allocated so far, oldest first. -/
structure Registry where
  home : Home
  probes : List RoutineProbe
  loops : List LoopProbe
  deriving Inhabited

namespace Registry

/-- The probe that the n-th routine gets, counted from zero. -/
def routineProbe (n : Nat) (r : Routine) : RoutineProbe :=
  ⟨"probe" ++ toString (n + 1) ++ "_" ++ sanitize r.name, r⟩

/--
The registry of a graph: a probe for each routine below the root, numbered in the order of
first occurrence. The root's own routine is among them only if a call leads back to it.
-/
def ofGraph (root : CallTree) (home : Home) : Registry :=
  let routines := CallTree.distinct ((CallTree.walkAll root.children).map CallTree.routine)
  ⟨home, routines.mapIdx routineProbe, []⟩

/-- The probe of a routine. -/
def probeFor? (registry : Registry) (r : Routine) : Option RoutineProbe :=
  registry.probes.find? (·.routine == r)

/-- Allocates a probe for a loop. -/
def addLoop (registry : Registry) (r : Routine) (line : Nat) : LoopProbe × Registry :=
  let probe : LoopProbe :=
    ⟨"loop" ++ toString (registry.loops.length + 1) ++ "_" ++ sanitize r.name, r, line⟩
  (probe, { registry with loops := registry.loops ++ [probe] })

/-- The loop probes of a routine. -/
def loopsOf (registry : Registry) (r : Routine) : List LoopProbe :=
  registry.loops.filter (·.routine == r)

/-- The names of all probes, in the order in which they are declared. -/
def fieldNames (registry : Registry) : List String :=
  registry.probes.map (·.name) ++ registry.loops.map (·.name)

end Registry

end ProbeWeave.Probe
