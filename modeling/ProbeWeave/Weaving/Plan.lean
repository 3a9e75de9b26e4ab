import ProbeWeave.Analysis
import ProbeWeave.Weaving.Mark

/-!
# Planning the weaving

Mapping goes through the routines of a call graph, the entry first, and collects for every module
the marked bodies of its routines. It ends before anything is woven, so the numbers of loop
probes do not depend on the order in which the modules are woven.
-/

namespace ProbeWeave.Weaving

open Syntax Graph Probe Project

/-- How far a module has come. -/
inductive UnitState where
  | unvisited
  | mapping
  | applying
  | done
  deriving DecidableEq, Inhabited, Repr

/-- How a state is written. -/
def UnitState.text : UnitState → String
  | unvisited => "unvisited"
  | mapping => "mapping"
  | applying => "applying"
  | done => "done"

/-- A routine with its marked body. -/
structure RoutinePlan where
  definition : Definition
  body : List Marked

/-- Whether a routine has anything to time. -/
def RoutinePlan.isActive (plan : RoutinePlan) : Bool :=
  (Marked.marksOfBlock plan.body).any Mark.isActive

/-- A module with the routines that mapping met in it. -/
structure UnitPlan where
  unit : SourceUnit
  routines : List RoutinePlan
  state : UnitState

namespace UnitPlan

/-- The plan of a module in which mapping met nothing. -/
def fresh (unit : SourceUnit) : UnitPlan :=
  ⟨unit, [], .unvisited⟩

/-- Adds a routine of the module. -/
def addRoutine (plan : UnitPlan) (routine : RoutinePlan) : UnitPlan :=
  { plan with
    routines := plan.routines ++ [routine]
    state := if plan.state == .unvisited then .mapping else plan.state }

/-- A plan whose module is being woven if mapping met anything in it. -/
def begin (plan : UnitPlan) : UnitPlan :=
  if plan.state == .mapping then { plan with state := .applying } else plan

/-- A plan whose module is woven. -/
def finish (plan : UnitPlan) : UnitPlan :=
  if plan.state == .applying then { plan with state := .done } else plan

end UnitPlan

/-- The stem of the names of temporaries. -/
def temporaryStem : String := "_timetrack_result"

/-- The names and the parameters that occur in a definition. -/
def takenNames (d : Definition) : List String :=
  (Node.stmt d.statement).preorder.filterMap fun node =>
    match node with
    | .expr (.name id _) => some id
    | .parameter p => some p.name
    | _ => none

/-- What decides which calls of a routine are timed. -/
def timingOf (a : Analysis) (registry : Registry) (caller : Caller) : Timing where
  routine := caller.definition.routine
  probeOf call := do
    let target ← ((a.project.keptTarget? a.exclusions caller call).toOption).join
    return (← registry.probeFor? target).name

/-- Maps a routine. -/
def mapRoutine (a : Analysis) (caller : Caller) (registry : Registry) : RoutinePlan × Registry :=
  let timing := timingOf a registry caller
  let supply := Supply.fresh temporaryStem (takenNames caller.definition)
  let (body, m) := timing.markBlock caller.definition.body ⟨supply, registry⟩
  (⟨caller.definition, body⟩, m.registry)

/-- Maps routines one after the other. -/
def mapRoutines (a : Analysis) : List Routine → Registry → List RoutinePlan × Registry
  | [], registry => ([], registry)
  | r :: rest, registry =>
    match a.project.caller? r with
    | none => mapRoutines a rest registry
    | some caller =>
      let (first, registry) := mapRoutine a caller registry
      let (others, registry) := mapRoutines a rest registry
      (first :: others, registry)

/-- Puts the routines of all modules to the plans of their modules. -/
def distribute (units : List SourceUnit) (routines : List RoutinePlan) : List UnitPlan :=
  units.map fun unit =>
    (routines.filter fun plan => plan.definition.routine.module == unit.name).foldl
      UnitPlan.addRoutine (.fresh unit)

/-- Maps all routines of a graph: the plans in the order of the modules' names, and the registry
with the loop probes. -/
def mapGraph (a : Analysis) (registry : Registry) : List UnitPlan × Registry :=
  let (routines, registry) := mapRoutines a a.graph.routines registry
  (distribute (a.project.sortedModules.map (·.unit)) routines, registry)

/-- Whether all calls that mapping may ask for can be dealt with. -/
def checkCalls (a : Analysis) : Except Project.Fault Unit :=
  a.graph.routines.forM fun r => discard (a.project.callees a.exclusions r)

end ProbeWeave.Weaving
