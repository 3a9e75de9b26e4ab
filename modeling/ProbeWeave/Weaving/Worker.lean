import ProbeWeave.Dictionary
import ProbeWeave.Files.Tree
import ProbeWeave.Weaving.Unit

/-!
# Weaving modules side by side

Several modules can be woven at a time, each by a worker of its own. A worker goes on in small steps,
and between two of them the others may do theirs. What all of them use is kept in one place: what
weaving needs to know, the files, how far each module has come, and the log that events are told to.
Workers read it anew in every step; their own plan, edits and events they keep to themselves.
-/

namespace ProbeWeave.Weaving

open Syntax Graph Probe Project Files

/-- What all workers use. -/
structure Workshop where
  setting : Setting
  tree : FileTree
  /-- How far each module has come. -/
  states : Dictionary String UnitState
  /-- The events that were told, oldest first. -/
  log : List Event

/-- What a worker does once everything that happened is told. -/
inductive Task where
  /-- Looks for the file of the module. -/
  | look
  /-- Rebuilds the routines that are left, given the edits of those before. -/
  | rebuild (left : List RoutinePlan) (edits : List LineEdit)
  /-- Makes the new text of the module. -/
  | splice (edits : List LineEdit)
  /-- Leaves the module as it is. -/
  | leave
  /-- Nothing any more. -/
  | rest (outcome : Except UnitFault (Option WovenUnit))

/-- A worker with the plan of its module. -/
structure Worker where
  plan : UnitPlan
  /-- What happened and was not told yet. -/
  untold : List Event
  told : List Event
  task : Task

/-- A module with the text that edits make of it, if they change it. -/
def wovenOf (unit : SourceUnit) (edits : List LineEdit) (events : List Event) : Option WovenUnit :=
  let source := applyEdits unit.source edits
  if edits.isEmpty || source == unit.source then none else some ⟨unit, source, events⟩

/-- Marks a module as done. -/
def Workshop.finish (shop : Workshop) (unit : SourceUnit) : Workshop :=
  { shop with states := shop.states.put unit.name .done }

namespace Worker

/-- A worker that has done nothing yet. -/
def begin (plan : UnitPlan) : Worker :=
  ⟨plan, [], [], .look⟩

/-- What a worker does next with the event or the task at hand, and what becomes of the workshop. -/
def step (w : Worker) (shop : Workshop) : Option (Worker × Workshop) :=
  let unit := w.plan.unit
  let lines := (Text.sourceLines unit.source).map Text.withoutBreak
  match w.untold with
  | event :: later =>
    some ({ w with untold := later, told := w.told ++ [event] }, { shop with log := shop.log ++ [event] })
  | [] =>
    match w.task with
    | .look =>
      if shop.tree.isFile unit.path.names then
        some ({ w with task := .rebuild (shop.setting.rebuilt w.plan) [] }, shop)
      else
        let warning : Event :=
          ⟨.warning, unit.relative.text ++ " is missing, skipped", some unit.path⟩
        some ({ w with untold := [warning], task := .leave }, shop)
    | .rebuild (r :: left) edits =>
      match shop.setting.rebuildRoutine unit lines r with
      | (events, .ok edit) =>
        some ({ w with untold := events, task := .rebuild left (edits ++ [edit]) }, shop)
      | (events, .error fault) => some ({ w with untold := events, task := .rest (.error fault) }, shop)
    | .rebuild [] edits =>
      let home := shop.setting.registry.home
      if unit.name == home.module then
        let edits := Setting.importEdit unit :: edits ++ [shop.setting.fieldEdit unit lines]
        some ({ w with
          untold := [⟨.fields, home.displayName, some unit.path⟩], task := .splice edits }, shop)
      else some ({ w with task := .splice edits }, shop)
    | .splice edits =>
      some ({ w with task := .rest (.ok (wovenOf unit edits w.told)) }, shop.finish unit)
    | .leave => some ({ w with task := .rest (.ok none) }, shop.finish unit)
    | .rest _ => none

/-- What came of a worker that has nothing to do any more. -/
def outcome? (w : Worker) : Option (Except UnitFault (Option WovenUnit)) :=
  match w.untold, w.task with
  | [], .rest outcome => some outcome
  | _, _ => none

end Worker

/-- The modules that changed, in the order of their workers, or the first fault. -/
def gather : List (Except UnitFault (Option WovenUnit)) → Except UnitFault (List WovenUnit)
  | [] => .ok []
  | .error fault :: _ => .error fault
  | .ok unit :: rest => (gather rest).map (unit.toList ++ ·)

/-- Workers that share a workshop. -/
structure Crew where
  shop : Workshop
  workers : List Worker

namespace Crew

/-- A worker for every module that is to be woven. -/
def begin (setting : Setting) (tree : FileTree) (plans : List UnitPlan) : Crew :=
  ⟨⟨setting, tree, .ofList (plans.map fun plan => (plan.unit.name, plan.state)), []⟩,
    (plans.filter (·.state == .applying)).map Worker.begin⟩

/-- Lets one worker do a step. -/
def step (i : Nat) (crew : Crew) : Option Crew := do
  let w ← crew.workers[i]?
  let (w, shop) ← w.step crew.shop
  return ⟨shop, crew.workers.set i w⟩

/-- Lets workers do steps in some order. -/
def run : List Nat → Crew → Option Crew
  | [], crew => some crew
  | i :: later, crew => (crew.step i).bind (run later)

/-- What comes of the work when no worker has anything to do any more. -/
def units? (crew : Crew) : Option (Except UnitFault (List WovenUnit)) :=
  (crew.workers.mapM Worker.outcome?).map gather

end Crew

end ProbeWeave.Weaving
