import ProbeWeave.Weaving.Unit
import ProbeWeave.Text.Identifier

/-!
# Instrumenting an analysed project

All routines of the call graph are mapped first. Then the modules in which any were met are
woven in the order of their names; modules that do not change are left out. A file that is gone
by then is left out with a warning.
-/

namespace ProbeWeave

open Graph Probe Weaving Files

/-- Why a project cannot be instrumented. -/
inductive InstrumentationFault where
  | badVariable (name : String)
  | badJobs (jobs : Int)
  | project (fault : Project.Fault)
  | unit (fault : UnitFault)
  deriving Repr

/-- What came of an instrumentation, complete or not. -/
structure Instrumentation where
  /-- The registry with the loop probes allocated. -/
  registry : Registry
  /-- Everything that happened. -/
  events : List Event
  /-- How far each module has come. -/
  states : List (String × UnitState)
  /-- The modules that changed, or why not all could be woven. -/
  units : Except InstrumentationFault (List WovenUnit)

namespace Instrumentation

/-- Weaves a module, unless its file is gone or mapping met nothing in it. -/
def applyPlan (setting : Setting) (tree : FileTree) (plan : UnitPlan) :
    List Event × Except UnitFault (Option WovenUnit) :=
  if plan.state != .applying then ([], .ok none)
  else if tree.isFile plan.unit.path.names then setting.weaveUnit plan
  else
    ([⟨.warning, plan.unit.relative.text ++ " is missing, skipped", some plan.unit.path⟩], .ok none)

/-- Weaves modules up to the first that cannot be. -/
def applyPlans (setting : Setting) (tree : FileTree) :
    List UnitPlan → List Event × Except UnitFault (List WovenUnit)
  | [] => ([], .ok [])
  | plan :: rest =>
    let (events, result) := applyPlan setting tree plan
    match result with
    | .error fault => (events, .error fault)
    | .ok unit =>
      let (more, units) := applyPlans setting tree rest
      (events ++ more, units.map (unit.toList ++ ·))

/-- An instrumentation that was given up before anything happened. -/
def refused (registry : Registry) (fault : InstrumentationFault) : Instrumentation :=
  ⟨registry, [], [], .error fault⟩

/-- Instruments a project, given the files that exist and the registry that loop probes are added
to. -/
def run (a : Analysis) (registry : Registry) (profile : Profile) (tree : FileTree) :
    Instrumentation :=
  if !Text.isIdentifier profile.reportVariable then
    refused registry (.badVariable profile.reportVariable)
  else if profile.jobs < 1 then refused registry (.badJobs profile.jobs)
  else
    match checkCalls a with
    | .error fault => refused registry (.project fault)
    | .ok () =>
      let (plans, registry) := mapGraph a registry
      let plans := plans.map UnitPlan.begin
      let setting : Setting :=
        ⟨a, registry, profile.generateReport, profile.reportVariable,
          profile.reportFile.map Path.text⟩
      let (events, units) := applyPlans setting tree plans
      ⟨registry, events, (plans.map UnitPlan.finish).map fun plan => (plan.unit.name, plan.state),
        units.mapError .unit⟩

end Instrumentation

/-- What a fault is reported as, where a report is needed beyond its kind. -/
def InstrumentationFault.message : InstrumentationFault → String
  | badVariable name => "Report variable " ++ Text.quoted name ++ " is not a valid name."
  | badJobs jobs => "jobs must be at least 1 (got " ++ toString jobs ++ ")."
  | project fault => fault.message
  | unit (.unprintable obstacle) => obstacle.message
  | unit (.unscannable _) => "the new text of a definition cannot be indented"

end ProbeWeave
