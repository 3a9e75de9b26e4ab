import ProbeWeave.Weaving.Worker

/-!
# The course of an instrumentation

An instrumentation goes through three stages. Routines are mapped one after the other, and a module is
marked when the first of its routines is. Then the marked modules are put to be woven, one after the
other. Only then do workers begin. How far a module has come stands in its plan and, for those who ask
meanwhile, in a table of its own.
-/

namespace ProbeWeave.Weaving

open Graph Probe Files

/-- The state that follows on a state. -/
def UnitState.next? : UnitState → Option UnitState
  | unvisited => some mapping
  | mapping => some applying
  | applying => some done
  | done => none

/-- How far an instrumentation has come. -/
inductive Course where
  /-- Routines are mapped; some are left. -/
  | mapping (left : List Routine) (registry : Registry) (plans : List UnitPlan)
      (states : Dictionary String UnitState)
  /-- Modules are put to be woven; some are left. -/
  | opening (registry : Registry) (opened left : List UnitPlan) (states : Dictionary String UnitState)
  /-- Workers weave the modules. -/
  | weaving (crew : Crew)

/-- Adds a routine to the plan of its module. -/
def planRoutine (routine : RoutinePlan) (plans : List UnitPlan) : List UnitPlan :=
  plans.map fun plan =>
    if routine.definition.routine.module == plan.unit.name then plan.addRoutine routine else plan

/-- Marks the module of a routine if its plan says that nothing was mapped in it. -/
def markMapping (routine : RoutinePlan) (plans : List UnitPlan)
    (states : Dictionary String UnitState) : Dictionary String UnitState :=
  let module := routine.definition.routine.module
  if plans.any fun plan => module == plan.unit.name && plan.state == .unvisited then
    states.put module .mapping
  else states

/-- Marks a module that is put to be woven. -/
def markApplying (plan : UnitPlan) (states : Dictionary String UnitState) :
    Dictionary String UnitState :=
  if plan.state == .mapping then states.put plan.unit.name .applying else states

namespace Course

/-- Where an instrumentation begins: no module was visited. -/
def begin (a : Analysis) (registry : Registry) : Course :=
  let units := a.project.sortedModules.map (·.unit)
  .mapping a.graph.routines registry (units.map .fresh)
    (.ofList (units.map fun unit => (unit.name, .unvisited)))

/-- How far each module has come. -/
def states : Course → Dictionary String UnitState
  | mapping _ _ _ states => states
  | opening _ _ _ states => states
  | weaving crew => crew.shop.states

/-- The routines that are still to be mapped. -/
def unmapped : Course → List Routine
  | mapping left _ _ _ => left
  | opening .. => []
  | weaving _ => []

/-- What an instrumentation does next. Only the workers have a choice. -/
inductive Step (a : Analysis) (profile : Profile) (tree : FileTree) : Course → Course → Prop
  /-- A routine that the project does not know is passed over. -/
  | pass {r : Routine} {left : List Routine} {registry : Registry} {plans : List UnitPlan}
      {states : Dictionary String UnitState} (unknown : a.project.caller? r = none) :
      Step a profile tree (.mapping (r :: left) registry plans states)
        (.mapping left registry plans states)
  | map {r : Routine} {left : List Routine} {registry : Registry} {plans : List UnitPlan}
      {states : Dictionary String UnitState} {caller : Project.Caller}
      (found : a.project.caller? r = some caller) :
      Step a profile tree (.mapping (r :: left) registry plans states)
        (.mapping left (mapRoutine a caller registry).2
          (planRoutine (mapRoutine a caller registry).1 plans)
          (markMapping (mapRoutine a caller registry).1 plans states))
  | close {registry : Registry} {plans : List UnitPlan} {states : Dictionary String UnitState} :
      Step a profile tree (.mapping [] registry plans states) (.opening registry [] plans states)
  | mark {registry : Registry} {opened left : List UnitPlan} {plan : UnitPlan}
      {states : Dictionary String UnitState} :
      Step a profile tree (.opening registry opened (plan :: left) states)
        (.opening registry (opened ++ [plan.begin]) left (markApplying plan states))
  | start {registry : Registry} {plans : List UnitPlan} {states : Dictionary String UnitState} :
      Step a profile tree (.opening registry plans [] states)
        (.weaving ⟨⟨⟨a, registry, profile.generateReport, profile.reportVariable,
            profile.reportFile.map Path.text⟩, tree, states, []⟩,
          (plans.filter (·.state == .applying)).map Worker.begin⟩)
  | work {crew crew' : Crew} {i : Nat} (next : crew.step i = some crew') :
      Step a profile tree (.weaving crew) (.weaving crew')

end Course

end ProbeWeave.Weaving
