import Mathlib
import ProbeWeave.Proofs.Splicing.Frame
import ProbeWeave.Weaving.Worker

/-! # Weaving side by side is weaving one by one

No worker writes what another one reads: the setting and the files stay as they are, and a module is
only ever marked as done. So whatever the others do in between, a worker comes to what weaving its
module alone gives, and tells the same events. What the log holds is an interleaving of what the
workers tell.

Weak memory and the order in which a pool starts its workers are left out: every order of the steps is
allowed, so the results hold for those of a pool.
-/

namespace ProbeWeave.Weaving

open Syntax ProbeWeave.Graph Probe Project Files Outcome

/-- A list made of several by taking in turn the next element of one of them. -/
inductive Interleaving {α : Type} : List (List α) → List α → Prop where
  | none {parts : List (List α)} (empty : ∀ part ∈ parts, part = []) : Interleaving parts []
  | snoc {parts : List (List α)} {whole : List α} {i : Nat} {part : List α} (x : α)
      (place : parts[i]? = some part) (before : Interleaving parts whole) :
      Interleaving (parts.set i (part ++ [x])) (whole ++ [x])

namespace Worker

variable {setting : Setting} {tree : FileTree} {w w' : Worker} {shop shop' : Workshop}

/-- The lines of a module. -/
def lines (w : Worker) : List String :=
  (Text.sourceLines w.plan.unit.source).map Text.withoutBreak

/-- What making the new text from edits comes to, given the events until then. -/
def concluded (plan : UnitPlan) (before : List Event) :
    List Event × Except UnitFault (List LineEdit) → List Event × Except UnitFault (Option WovenUnit)
  | (events, .error fault) => (before ++ events, .error fault)
  | (events, .ok edits) => (before ++ events, .ok (wovenOf plan.unit edits (before ++ events)))

/-- The edits of a module whose routines are rebuilt, and what is told of them. -/
def completed (setting : Setting) (unit : SourceUnit) (lines : List String) (edits : List LineEdit) :
    List Event × Except UnitFault (List LineEdit) →
      List Event × Except UnitFault (List LineEdit)
  | (events, .error fault) => (events, .error fault)
  | (events, .ok more) =>
    let home := setting.registry.home
    if unit.name == home.module then
      (events ++ [⟨.fields, home.displayName, some unit.path⟩],
        .ok (Setting.importEdit unit :: (edits ++ more) ++ [setting.fieldEdit unit lines]))
    else (events, .ok (edits ++ more))

/-- All events of a worker and what comes of it if nobody else does anything. -/
def whole (setting : Setting) (tree : FileTree) (w : Worker) :
    List Event × Except UnitFault (Option WovenUnit) :=
  let before := w.told ++ w.untold
  match w.task with
  | .look =>
    if tree.isFile w.plan.unit.path.names then concluded w.plan before (setting.unitEdits w.plan)
    else
      (before ++ [⟨.warning, w.plan.unit.relative.text ++ " is missing, skipped",
        some w.plan.unit.path⟩], .ok none)
  | .rebuild left edits =>
    concluded w.plan before (completed setting w.plan.unit w.lines edits
      (setting.rebuildRoutines w.plan.unit w.lines left))
  | .splice edits => (before, .ok (wovenOf w.plan.unit edits before))
  | .leave => (before, .ok none)
  | .rest outcome => (before, outcome)

/-- Alone, a worker does what weaving its module does. -/
theorem whole_begin {plan : UnitPlan} (met : plan.state = .applying) :
    (begin plan).whole setting tree = Instrumentation.applyPlan setting tree plan := by
  have woven : concluded plan [] (setting.unitEdits plan) = setting.weaveUnit plan := by
    unfold Setting.weaveUnit
    dsimp only
    generalize setting.unitEdits plan = outcome
    obtain ⟨events, fault | edits⟩ := outcome
    · rfl
    · rfl
  rw [Instrumentation.applyPlan, if_neg (by simp [met]), ← woven]
  rfl

/-- Rebuilding begins with no edits. -/
theorem completed_nil (setting : Setting) (plan : UnitPlan) :
    completed setting plan.unit (begin plan).lines []
        (setting.rebuildRoutines plan.unit (begin plan).lines (setting.rebuilt plan)) =
      setting.unitEdits plan := by
  unfold Setting.unitEdits
  dsimp only
  rw [lines]
  change completed _ _ _ _ (setting.rebuildRoutines plan.unit
    ((Text.sourceLines plan.unit.source).map Text.withoutBreak) _) = _
  generalize setting.rebuildRoutines plan.unit
    ((Text.sourceLines plan.unit.source).map Text.withoutBreak) (setting.rebuilt plan) = outcome
  obtain ⟨events, fault | edits⟩ := outcome
  · rfl
  · rfl

/-- A routine that is rebuilt first adds its events and its edit in front of those of the others. -/
theorem concluded_cons {plan : UnitPlan} {lines : List String} {r : RoutinePlan} {events : List Event}
    {edit : LineEdit} (rebuilt : setting.rebuildRoutine plan.unit lines r = (events, .ok edit))
    {before : List Event} {edits : List LineEdit} {left : List RoutinePlan} :
    concluded plan (before ++ events) (completed setting plan.unit lines (edits ++ [edit])
        (setting.rebuildRoutines plan.unit lines left)) =
      concluded plan before (completed setting plan.unit lines edits
        (setting.rebuildRoutines plan.unit lines (r :: left))) := by
  rw [Setting.rebuildRoutines, rebuilt]
  dsimp only
  generalize setting.rebuildRoutines plan.unit lines left = others
  obtain ⟨more, fault | later⟩ := others
  · simp only [Except.map, completed, concluded, List.append_assoc]
  · by_cases home : (plan.unit.name == setting.registry.home.module) = true
    · simp only [Except.map, completed, home, if_true, concluded, List.append_assoc, List.singleton_append]
    · simp only [Except.map, completed, home, concluded, List.append_assoc, List.singleton_append,
        Bool.false_eq_true, if_false]

/-- The number of turns that a worker takes besides telling events. -/
def turns (setting : Setting) (w : Worker) : Nat :=
  match w.task with
  | .look => (setting.rebuilt w.plan).length + 3
  | .rebuild left _ => left.length + 2
  | .splice _ | .leave => 1
  | .rest _ => 0

/-- How a worker turns from one task to the next: it goes on to the same end, and the workshop stays as
it is, but for a module that is marked as done. -/
structure Turns (w w' : Worker) (shop shop' : Workshop) : Prop where
  plan : w'.plan = w.plan
  told : w'.told = w.told
  whole : w'.whole shop.setting shop.tree = w.whole shop.setting shop.tree
  fewer : w'.turns shop.setting < w.turns shop.setting
  shop : (shop' = shop ∧ ∀ woven, w'.task ≠ .rest (.ok woven)) ∨ shop' = shop.finish w.plan.unit

/-- A worker that has an event to tell tells it. -/
theorem step_of_untold {event : Event} {later : List Event} (waiting : w.untold = event :: later) :
    w.step shop = some ({ w with untold := later, told := w.told ++ [event] },
      { shop with log := shop.log ++ [event] }) := by
  rw [step, waiting]

/-- A worker whose file is there goes on to rebuild. -/
theorem step_look {plan : UnitPlan}
    (there : shop.tree.isFile plan.unit.path.names = true) :
    (begin plan).step shop =
      some (⟨plan, [], [], .rebuild (shop.setting.rebuilt plan) []⟩, shop) := by
  simp only [step, begin, there, if_true]

/-- A worker that has told everything turns to its next task. -/
theorem turns_of_step (quiet : w.untold = []) (next : w.step shop = some (w', shop')) :
    Turns w w' shop shop' := by
  obtain ⟨plan, untold, told, task⟩ := w
  obtain rfl : untold = [] := quiet
  cases task with
  | look =>
    dsimp only [step] at next
    split at next
    · rename_i present
      cases next
      refine ⟨rfl, rfl, ?_, by simp [turns], .inl ⟨rfl, fun _ ends => by cases ends⟩⟩
      simp only [whole, present, if_true, List.append_nil]
      exact congrArg (concluded plan told) (completed_nil shop.setting plan)
    · rename_i absent
      cases next
      refine ⟨rfl, rfl, ?_, by simp [turns], .inl ⟨rfl, fun _ ends => by cases ends⟩⟩
      simp only [whole, absent, List.append_nil, Bool.false_eq_true, if_false]
  | rebuild left edits =>
    cases left with
    | nil =>
      dsimp only [step] at next
      split at next
      · rename_i home
        cases next
        refine ⟨rfl, rfl, ?_, by simp [turns], .inl ⟨rfl, fun _ ends => by cases ends⟩⟩
        simp only [whole, Setting.rebuildRoutines, completed, home, if_true, concluded,
          List.append_nil, List.nil_append]
        rfl
      · rename_i elsewhere
        cases next
        refine ⟨rfl, rfl, ?_, by simp [turns], .inl ⟨rfl, fun _ ends => by cases ends⟩⟩
        simp only [whole, Setting.rebuildRoutines, completed, elsewhere, concluded,
          List.append_nil, Bool.false_eq_true, if_false]
    | cons r left =>
      dsimp only [step] at next
      split at next
      · rename_i events edit rebuilt
        cases next
        refine ⟨rfl, rfl, ?_, by simp [turns], .inl ⟨rfl, fun _ ends => by cases ends⟩⟩
        simp only [whole, List.append_nil]
        exact concluded_cons rebuilt
      · rename_i events fault failed
        cases next
        refine ⟨rfl, rfl, ?_, by simp [turns], .inl ⟨rfl, fun _ ends => by cases ends⟩⟩
        simp only [whole, lines, Setting.rebuildRoutines, failed, completed, concluded, List.append_nil]
  | splice edits =>
    cases next
    exact ⟨rfl, rfl, by simp [whole], Nat.one_pos, .inr rfl⟩
  | leave =>
    cases next
    exact ⟨rfl, rfl, rfl, Nat.one_pos, .inr rfl⟩
  | rest outcome => cases next

/-- What a worker told and has to tell is how all its events begin. -/
theorem told_begins (setting : Setting) (tree : FileTree) (w : Worker) :
    w.told ++ w.untold <+: (w.whole setting tree).1 := by
  have begins (plan : UnitPlan) (before : List Event)
      (outcome : List Event × Except UnitFault (List LineEdit)) :
      before <+: (concluded plan before outcome).1 := by
    obtain ⟨events, fault | edits⟩ := outcome
    · exact List.prefix_append ..
    · exact List.prefix_append ..
  obtain ⟨plan, untold, told, task⟩ := w
  cases task with
  | look =>
    dsimp only [whole]
    split
    · exact begins ..
    · exact List.prefix_append ..
  | rebuild left edits => exact begins ..
  | splice edits => exact List.prefix_rfl
  | leave => exact List.prefix_rfl
  | rest outcome => exact List.prefix_rfl

/-- A worker that has come to rest has told everything. -/
theorem whole_of_outcome {outcome : Except UnitFault (Option WovenUnit)}
    (rests : w.outcome? = some outcome) :
    w.whole setting tree = (w.told, outcome) ∧ w.task = .rest outcome := by
  obtain ⟨plan, untold, told, task⟩ := w
  unfold outcome? at rests
  dsimp only at rests
  split at rests
  · cases rests
    exact ⟨by simp [whole], rfl⟩
  · cases rests

/-- A worker that has not come to rest can do a step. -/
theorem step_of_outcome (busy : w.outcome? = none) (shop : Workshop) : (w.step shop).isSome := by
  obtain ⟨plan, untold, told, task⟩ := w
  cases untold with
  | cons event later => rfl
  | nil =>
    cases task with
    | look =>
      dsimp only [step]
      split
      · rfl
      · rfl
    | rebuild left edits =>
      cases left with
      | nil =>
        dsimp only [step]
        split
        · rfl
        · rfl
      | cons r left =>
        dsimp only [step]
        split
        · rfl
        · rfl
    | splice edits => rfl
    | leave => rfl
    | rest outcome => cases busy

/-- The number of steps that are left to a worker that tells everything. -/
def work (setting : Setting) (tree : FileTree) (w : Worker) : Nat :=
  ((w.whole setting tree).1.length - w.told.length) + w.turns setting

/-- How a worker gets on in a step, and what it changes in the workshop. -/
structure Advances (w w' : Worker) (shop shop' : Workshop) : Prop where
  plan : w'.plan = w.plan
  setting : shop'.setting = shop.setting
  tree : shop'.tree = shop.tree
  whole : w'.whole shop.setting shop.tree = w.whole shop.setting shop.tree
  work : w'.work shop.setting shop.tree < w.work shop.setting shop.tree
  /-- Whatever it tells goes to the log. -/
  tells : (w'.told = w.told ∧ shop'.log = shop.log) ∨
    ∃ event, w'.told = w.told ++ [event] ∧ shop'.log = shop.log ++ [event]
  /-- It marks no module but its own, and that one as done. -/
  states : shop'.states = shop.states ∨ shop'.states = shop.states.put w.plan.unit.name .done
  done : ∀ woven, w'.task = .rest (.ok woven) →
    w.task = .rest (.ok woven) ∧ shop'.states = shop.states ∨
      shop'.states = shop.states.put w.plan.unit.name .done

theorem advances_of_step (next : w.step shop = some (w', shop')) : Advances w w' shop shop' := by
  cases waiting : w.untold with
  | nil =>
    obtain ⟨plan, told, whole, fewer, changes⟩ := turns_of_step waiting next
    have less : w'.work shop.setting shop.tree < w.work shop.setting shop.tree := by
      rw [work, work, whole, told]
      omega
    rcases changes with ⟨rfl, busy⟩ | rfl
    · exact ⟨plan, rfl, rfl, whole, less, .inl ⟨told, rfl⟩, .inl rfl,
        fun woven rests => absurd rests (busy woven)⟩
    · exact ⟨plan, rfl, rfl, whole, less, .inl ⟨told, rfl⟩, .inr rfl, fun _ _ => .inr rfl⟩
  | cons event later =>
    rw [step_of_untold waiting] at next
    cases next
    have same : whole shop.setting shop.tree
        { w with untold := later, told := w.told ++ [event] } = w.whole shop.setting shop.tree := by
      simp only [whole, waiting, lines, List.append_assoc, List.singleton_append]
    have begins := (told_begins shop.setting shop.tree w).length_le
    rw [waiting, List.length_append, List.length_cons] at begins
    refine ⟨rfl, rfl, rfl, same, ?_, .inr ⟨event, rfl, rfl⟩, .inl rfl, fun woven rests => .inl ⟨rests, rfl⟩⟩
    rw [work, same, work, List.length_append, List.length_singleton]
    have turns : turns shop.setting { w with untold := later, told := w.told ++ [event] } =
        w.turns shop.setting := rfl
    omega

end Worker

namespace Crew

variable {setting : Setting} {tree : FileTree} {plans : List UnitPlan} {crew crew' last : Crew}
  {i : Nat} {schedule : List Nat}

/-- The number of steps that are left to a crew. -/
def work (crew : Crew) : Nat :=
  (crew.workers.map (Worker.work crew.shop.setting crew.shop.tree)).sum

/-- What holds of a crew at any time: what the workers look at is as it was, each of them is on the way
to what weaving its module alone gives, and the log holds what they told. -/
structure Agrees (setting : Setting) (tree : FileTree) (plans : List UnitPlan) (crew : Crew) : Prop where
  knows : crew.shop.setting = setting
  sees : crew.shop.tree = tree
  whole : crew.workers.map (fun w => (w.plan, w.whole setting tree)) =
    plans.map fun plan => (plan, Instrumentation.applyPlan setting tree plan)
  log : Interleaving (crew.workers.map (·.told)) crew.shop.log
  done : ∀ w ∈ crew.workers, ∀ woven, w.task = .rest (.ok woven) →
    crew.shop.states.get? w.plan.unit.name = some .done

/-- A step of a crew is a step of one of its workers. -/
theorem step_eq_some : crew.step i = some crew' ↔
    ∃ w w' shop', crew.workers[i]? = some w ∧ w.step crew.shop = some (w', shop') ∧
      crew' = ⟨shop', crew.workers.set i w'⟩ := by
  simp only [step, bind, Option.bind_eq_some_iff, pure, Option.some.injEq, Prod.exists]
  constructor
  · rintro ⟨w, here, w', shop', next, rfl⟩
    exact ⟨w, w', shop', here, next, rfl⟩
  · rintro ⟨w, w', shop', here, next, rfl⟩
    exact ⟨w, here, w', shop', next, rfl⟩

theorem run_cons {w w' : Worker} {shop' : Workshop} {later : List Nat} (here : crew.workers[i]? = some w)
    (next : w.step crew.shop = some (w', shop')) :
    crew.run (i :: later) = run later ⟨shop', crew.workers.set i w'⟩ := by
  rw [run, step_eq_some.mpr ⟨w, w', shop', here, next, rfl⟩, Option.bind_some]

/-- Workers that have done nothing are on the way to what weaving their modules gives. -/
theorem agrees_begin (plans : List UnitPlan) :
    Agrees setting tree (plans.filter (·.state == .applying)) (begin setting tree plans) := by
  refine ⟨rfl, rfl, ?_, .none ?_, ?_⟩
  · rw [begin, List.map_map]
    refine List.map_congr_left fun plan member => ?_
    have met : plan.state = .applying := by simpa using (List.mem_filter.mp member).2
    exact congrArg (Prod.mk plan) (Worker.whole_begin met)
  · intro part member
    obtain ⟨w, begun, rfl⟩ := List.mem_map.mp member
    obtain ⟨plan, -, rfl⟩ := List.mem_map.mp begun
    rfl
  · intro w begun woven rests
    obtain ⟨plan, -, rfl⟩ := List.mem_map.mp begun
    cases rests

/-- A module that is done stays so when a module is marked as done. -/
theorem done_put {states : Dictionary String UnitState} {name other : String}
    (done : states.get? name = some .done) : (states.put other .done).get? name = some .done := by
  by_cases same : name = other
  · rw [same, Dictionary.get?_put_self]
  · rw [Dictionary.get?_put_of_ne same, done]

/-- A step keeps a crew on its way and leaves it less to do. -/
theorem agrees_step (agrees : Agrees setting tree plans crew) (next : crew.step i = some crew') :
    Agrees setting tree plans crew' ∧ crew'.work < crew.work := by
  obtain ⟨w, w', shop', here, moves, rfl⟩ := step_eq_some.mp next
  obtain ⟨rfl, rfl, whole, log, done⟩ := agrees
  obtain ⟨plan, setting, tree, same, less, tells, states, marked⟩ := Worker.advances_of_step moves
  obtain ⟨inside, found⟩ := List.getElem?_eq_some_iff.mp here
  obtain ⟨before, after, split, -, put⟩ :
      ∃ before after, crew.workers = before ++ crew.workers[i] :: after ∧ before.length = i ∧
        crew.workers.set i w' = before ++ w' :: after := List.exists_of_set inside
  rw [found] at split
  -- All but the one worker stay as they are, so only what it changes has to be looked at.
  have kept {β : Type} (f : Worker → β) (image : f w' = f w) :
      (crew.workers.set i w').map f = crew.workers.map f := by
    rw [put, List.map_append, List.map_cons, image, ← List.map_cons, ← List.map_append, ← split]
  have stays {v : Worker} {woven : Option WovenUnit} (member : v ∈ crew.workers)
      (rests : v.task = .rest (.ok woven)) : shop'.states.get? v.plan.unit.name = some .done := by
    have before := done v member woven rests
    rcases states with states | states
    · rw [states, before]
    · rw [states, done_put before]
  refine ⟨⟨setting, tree, ?_, ?_, ?_⟩, ?_⟩
  · rw [kept _ (by rw [plan, same]), whole]
  · rcases tells with ⟨told, log'⟩ | ⟨event, told, log'⟩
    · rw [kept _ told, log']
      exact log
    · rw [List.map_set, told, log']
      exact log.snoc event (by rw [List.getElem?_map, here, Option.map_some])
  · intro v member woven rests
    rcases List.mem_or_eq_of_mem_set member with member | rfl
    · exact stays member rests
    · rcases marked woven rests with ⟨rested, -⟩ | states
      · rw [plan]
        exact stays (found ▸ List.getElem_mem inside) rested
      · rw [states, plan, Dictionary.get?_put_self]
  · have now : crew.work =
        ((before ++ w :: after).map (Worker.work crew.shop.setting crew.shop.tree)).sum := by
      rw [work, ← split]
    have then_ : work ⟨shop', crew.workers.set i w'⟩ =
        ((before ++ w' :: after).map (Worker.work crew.shop.setting crew.shop.tree)).sum := by
      rw [work, put, setting, tree]
    rw [now, then_]
    simp only [List.map_append, List.map_cons, List.sum_append, List.sum_cons]
    omega

/-- At any time of a run, a crew is on its way, and every step has left it less to do. -/
theorem agrees_run (agrees : Agrees setting tree plans crew) (ran : crew.run schedule = some last) :
    Agrees setting tree plans last ∧ schedule.length + last.work ≤ crew.work := by
  induction schedule generalizing crew with
  | nil =>
    cases ran
    exact ⟨agrees, by simp⟩
  | cons i later ih =>
    obtain ⟨middle, next, ran⟩ := Option.bind_eq_some_iff.mp ran
    obtain ⟨agrees, less⟩ := agrees_step agrees next
    obtain ⟨agrees, bound⟩ := ih agrees ran
    refine ⟨agrees, ?_⟩
    rw [List.length_cons]
    omega

/-- Workers come to outcomes together if each of them does. -/
theorem mapM_outcome? {workers : List Worker} {outcomes : List (Except UnitFault (Option WovenUnit))} :
    workers.mapM Worker.outcome? = some outcomes ↔
      workers.map Worker.outcome? = outcomes.map some := by
  induction workers generalizing outcomes with
  | nil => cases outcomes <;> simp
  | cons w rest ih =>
    simp only [List.mapM_cons, bind, Option.bind_eq_some_iff, pure, Option.some.injEq, ih, List.map_cons]
    constructor
    · rintro ⟨outcome, rests, others, later, rfl⟩
      rw [rests, later, List.map_cons]
    · cases outcomes with
      | nil =>
        intro same
        cases same
      | cons outcome others =>
        intro same
        obtain ⟨rests, later⟩ := List.cons.inj same
        exact ⟨outcome, rests, others, later, rfl⟩

/-- As long as not all workers have come to rest, one of them can do a step. -/
theorem exists_step (busy : crew.units? = none) : ∃ i crew', crew.step i = some crew' := by
  have unready : ∃ w ∈ crew.workers, w.outcome? = none := by
    by_contra ready
    have each : ∀ w ∈ crew.workers, w.outcome? = some (w.outcome?.getD (.ok none)) := by
      intro w member
      cases rests : w.outcome? with
      | none => exact absurd ⟨w, member, rests⟩ ready
      | some outcome => rfl
    have all := mapM_outcome?.mpr ((List.map_congr_left each).trans (List.map_map ..).symm)
    rw [units?, all] at busy
    cases busy
  obtain ⟨w, member, busy⟩ := unready
  obtain ⟨i, here⟩ := List.mem_iff_getElem?.mp member
  obtain ⟨⟨w', shop'⟩, next⟩ := Option.isSome_iff_exists.mp (Worker.step_of_outcome busy crew.shop)
  exact ⟨i, _, step_eq_some.mpr ⟨w, w', shop', here, next, rfl⟩⟩

/-- Every crew can carry its work to the end. -/
theorem exists_run (agrees : Agrees setting tree plans crew) :
    ∃ schedule last, crew.run schedule = some last ∧ last.units?.isSome := by
  induction left : crew.work using Nat.strong_induction_on generalizing crew with
  | h left ih =>
    cases ended : crew.units? with
    | some units => exact ⟨[], crew, rfl, by rw [ended]; rfl⟩
    | none =>
      obtain ⟨i, crew', next⟩ := exists_step ended
      obtain ⟨agrees, less⟩ := agrees_step agrees next
      obtain ⟨schedule, last, ran, ended⟩ := ih crew'.work (left ▸ less) agrees rfl
      exact ⟨i :: schedule, last, by rw [run, next, Option.bind_some, ran], ended⟩

/-- Modules in which mapping met nothing give nothing. -/
theorem gather_applying (setting : Setting) (tree : FileTree) (plans : List UnitPlan) :
    gather ((plans.filter (·.state == .applying)).map fun plan =>
        (Instrumentation.applyPlan setting tree plan).2) =
      (Instrumentation.applyPlans setting tree plans).2 := by
  induction plans with
  | nil => rfl
  | cons plan rest ih =>
    rw [Instrumentation.applyPlans, List.filter_cons]
    split
    · rw [List.map_cons]
      generalize Instrumentation.applyPlan setting tree plan = first
      obtain ⟨events, fault | woven⟩ := first
      · rfl
      · rw [gather, ih]
    · rename_i unmet
      have none : Instrumentation.applyPlan setting tree plan = ([], .ok none) := by
        rw [Instrumentation.applyPlan, if_pos (by simpa using unmet)]
      rw [none, ih]
      dsimp only
      generalize (Instrumentation.applyPlans setting tree rest) = others
      obtain ⟨events, fault | later⟩ := others
      · rfl
      · rfl

/-- What comes of a crew is what comes of weaving its modules one after the other. -/
theorem units_of_agrees {units : Except UnitFault (List WovenUnit)}
    (agrees : Agrees setting tree (plans.filter (·.state == .applying)) crew)
    (ended : crew.units? = some units) :
    units = (Instrumentation.applyPlans setting tree plans).2 := by
  obtain ⟨outcomes, all, rfl⟩ := Option.map_eq_some_iff.mp ended
  have each : crew.workers.map (fun w => some (w.whole setting tree).2) = outcomes.map some := by
    rw [← mapM_outcome?.mp all]
    refine List.map_congr_left fun w member => ?_
    have rests : w.outcome? ∈ outcomes.map some :=
      mapM_outcome?.mp all ▸ List.mem_map_of_mem member
    obtain ⟨outcome, -, rests⟩ := List.mem_map.mp rests
    rw [← rests, (Worker.whole_of_outcome rests.symm).1]
  have whole := congrArg (List.map fun pair => pair.2.2) agrees.whole
  rw [List.map_map, List.map_map] at whole
  rw [← gather_applying]
  refine congrArg gather ?_
  have same : outcomes = crew.workers.map fun w => (w.whole setting tree).2 := by
    refine (List.map_injective_iff.mpr (Option.some_injective _)).eq_iff.mp ?_
    rw [← each, List.map_map]
    rfl
  rw [same]
  exact whole

end Crew

end ProbeWeave.Weaving

namespace ProbeWeave.Instrumentation

open Weaving ProbeWeave.Graph Probe

variable {a : Analysis} {registry : Registry} {profile : Profile} {tree : Files.FileTree}
  {schedule : List Nat} {crew : Crew}

/-- A module that changes has the events that are told of it. -/
theorem events_of_applyPlan {setting : Setting} {plan : UnitPlan} {events : List Event} {u : WovenUnit}
    (applied : applyPlan setting tree plan = (events, .ok (some u))) : u.events = events := by
  unfold applyPlan at applied
  split at applied
  · cases applied
  · split at applied
    · obtain ⟨edits, made, -, -⟩ := weaveUnit_eq_ok (congrArg Prod.snd applied)
      rw [Setting.weaveUnit, made] at applied
      exact congrArg Prod.fst applied
    · cases applied

/-- Whatever order the workers of an instrumentation do their steps in, they come to the units of the
instrumentation that weaves one module after the other, with the same texts and events, and every
module ends as done. What they look at stays as it is, and the log is an interleaving of what they
tell. No order goes on forever, and every one can be carried to the end. -/
theorem side_by_side (named : Text.isIdentifier profile.reportVariable = true)
    (checked : checkCalls a = .ok ())
    (ran : (Crew.begin (settingOf a registry profile) tree (plansOf a registry)).run schedule =
      some crew) :
    crew.shop.setting = settingOf a registry profile ∧ crew.shop.tree = tree ∧
      crew.workers.map (·.plan) = (plansOf a registry).filter (·.state == .applying) ∧
      Interleaving (crew.workers.map (·.told)) crew.shop.log ∧
      (∀ w ∈ crew.workers,
        w.told <+: (applyPlan (settingOf a registry profile) tree w.plan).1 ∧
          ∀ outcome, w.outcome? = some outcome →
            applyPlan (settingOf a registry profile) tree w.plan = (w.told, outcome) ∧
              ∀ woven, outcome = .ok woven →
                crew.shop.states.get? w.plan.unit.name = some .done ∧ ∀ u ∈ woven, u.events = w.told) ∧
      (∀ units, crew.units? = some units →
        units.mapError .unit = (run a registry { profile with jobs := 1 } tree).units) ∧
      schedule.length ≤
        (Crew.begin (settingOf a registry profile) tree (plansOf a registry)).work ∧
      ∃ more last, crew.run more = some last ∧ last.units?.isSome := by
  have alone : (run a registry { profile with jobs := 1 } tree).units =
      (applyPlans (settingOf a registry profile) tree (plansOf a registry)).2.mapError .unit :=
    units_run named le_rfl checked
  obtain ⟨agrees, bound⟩ := Crew.agrees_run (Crew.agrees_begin (plansOf a registry)) ran
  have whole {w : Worker} (member : w ∈ crew.workers) :
      w.whole (settingOf a registry profile) tree =
        applyPlan (settingOf a registry profile) tree w.plan := by
    have pair := List.mem_map_of_mem
      (f := fun w => (w.plan, Worker.whole (settingOf a registry profile) tree w)) member
    rw [agrees.whole] at pair
    obtain ⟨plan, -, same⟩ := List.mem_map.mp pair
    obtain ⟨rfl, whole⟩ := Prod.mk.inj same
    exact whole.symm
  refine ⟨agrees.knows, agrees.sees, ?_, agrees.log, ?_, ?_, by omega, Crew.exists_run agrees⟩
  · have plans := congrArg (List.map Prod.fst) agrees.whole
    rw [List.map_map, List.map_map] at plans
    exact plans.trans (List.map_id _)
  · intro w member
    refine ⟨whole member ▸ (List.prefix_append ..).trans (Worker.told_begins ..), ?_⟩
    intro outcome rests
    obtain ⟨told, task⟩ := Worker.whole_of_outcome rests
    rw [whole member] at told
    refine ⟨told, ?_⟩
    rintro woven rfl
    refine ⟨agrees.done w member woven task, ?_⟩
    intro u changed
    obtain rfl := Option.mem_def.mp changed
    exact events_of_applyPlan told
  · intro units ended
    rw [Crew.units_of_agrees agrees ended, alone]

end ProbeWeave.Instrumentation

namespace ProbeWeave.Weaving.TwoModules

open Syntax ProbeWeave.Graph Probe Project

def callerLines : List String := (Text.sourceLines callerUnit.source).map Text.withoutBreak

def calledLines : List String := (Text.sourceLines calledUnit.source).map Text.withoutBreak

theorem rebuildRoutine_run : setting.rebuildRoutine callerUnit callerLines runPlan =
    ([⟨.call, "run -> probe1_f", some callerUnit.path⟩], .ok runEdit) := by
  obtain ⟨rebuilt, built, same⟩ := unitEdits_eq_ok (congrArg Prod.snd unitEdits_caller)
  obtain rfl : rebuilt = [runEdit] :=
    ((List.append_left_inj _).mp (List.cons.inj same).2).symm
  obtain ⟨edit, member, made⟩ := exists_definitionEdit built (r := runPlan) (List.mem_singleton_self _)
  obtain rfl := List.mem_singleton.mp member
  exact Prod.ext rfl made

theorem rebuildRoutine_f : setting.rebuildRoutine calledUnit calledLines fPlan =
    ([⟨.call, "f -> probe2_g", some calledUnit.path⟩], .ok fEdit) := by
  obtain ⟨edit, member, made⟩ := exists_edit_of_rebuilt (congrArg Prod.snd unitEdits_called)
    (r := fPlan) (List.mem_singleton_self _)
  obtain rfl := List.mem_singleton.mp member
  exact Prod.ext rfl made

def callerPlan : UnitPlan := ⟨callerUnit, [runPlan], .applying⟩

def calledPlan : UnitPlan := ⟨calledUnit, [fPlan, gPlan], .applying⟩

def callerEdits : List LineEdit :=
  [⟨1, 0, ["from timetrack_cli.stopwatch import Stopwatch"]⟩, runEdit,
    ⟨4, 3, ["probe1_f = Stopwatch()", "probe2_g = Stopwatch()", ""]⟩]

theorem wovenOf_caller : wovenOf callerUnit callerEdits wovenCaller.events = some wovenCaller := by
  have woven := congrArg Prod.snd weaveUnit_caller
  rw [Setting.weaveUnit, unitEdits_caller] at woven
  exact Except.ok.inj woven

theorem wovenOf_called : wovenOf calledUnit [fEdit] wovenCalled.events = some wovenCalled := by
  have woven := congrArg Prod.snd weaveUnit_called
  rw [Setting.weaveUnit, unitEdits_called] at woven
  exact Except.ok.inj woven

/-- Two workers that take turns irregularly. -/
def turns : List Nat := [0, 1, 1, 0, 0, 1, 0, 0, 1, 1, 0]

def finished : Crew where
  shop := ⟨setting, tree, .ofList [("a", .done), ("b", .done)],
    [⟨.call, "run -> probe1_f", some callerUnit.path⟩,
      ⟨.call, "f -> probe2_g", some calledUnit.path⟩,
      ⟨.fields, "a", some callerUnit.path⟩]⟩
  workers := [⟨callerPlan, [], wovenCaller.events, .rest (.ok (some wovenCaller))⟩,
    ⟨calledPlan, [], wovenCalled.events, .rest (.ok (some wovenCalled))⟩]

set_option maxRecDepth 10000 in
theorem run_turns : (Crew.begin setting tree [callerPlan, calledPlan]).run turns = some finished := by
  have caller (states : Dictionary String UnitState) (log : List Event) :
      Worker.step ⟨callerPlan, [], [], .rebuild [runPlan] []⟩ ⟨setting, tree, states, log⟩ =
        some (⟨callerPlan, [⟨.call, "run -> probe1_f", some callerUnit.path⟩], [],
          .rebuild [] [runEdit]⟩, ⟨setting, tree, states, log⟩) := by
    have made := rebuildRoutine_run
    rw [callerLines] at made
    simp only [Worker.step, callerPlan, made]
    rfl
  have called (states : Dictionary String UnitState) (log : List Event) :
      Worker.step ⟨calledPlan, [], [], .rebuild [fPlan] []⟩ ⟨setting, tree, states, log⟩ =
        some (⟨calledPlan, [⟨.call, "f -> probe2_g", some calledUnit.path⟩], [],
          .rebuild [] [fEdit]⟩, ⟨setting, tree, states, log⟩) := by
    have made := rebuildRoutine_f
    rw [calledLines] at made
    simp only [Worker.step, calledPlan, made]
    rfl
  have callerEnd (states : Dictionary String UnitState) (log : List Event) :
      Worker.step ⟨callerPlan, [], wovenCaller.events, .splice callerEdits⟩ ⟨setting, tree, states, log⟩ =
        some (⟨callerPlan, [], wovenCaller.events, .rest (.ok (some wovenCaller))⟩,
          ⟨setting, tree, states.put "a" .done, log⟩) := by
    simp only [Worker.step, callerPlan, wovenOf_caller]
    rfl
  have calledEnd (states : Dictionary String UnitState) (log : List Event) :
      Worker.step ⟨calledPlan, [], wovenCalled.events, .splice [fEdit]⟩ ⟨setting, tree, states, log⟩ =
        some (⟨calledPlan, [], wovenCalled.events, .rest (.ok (some wovenCalled))⟩,
          ⟨setting, tree, states.put "b" .done, log⟩) := by
    simp only [Worker.step, calledPlan, wovenOf_called]
    rfl
  calc (Crew.begin setting tree [callerPlan, calledPlan]).run turns
    _ = _ := Crew.run_cons rfl (Worker.step_look rfl)
    _ = _ := Crew.run_cons rfl (Worker.step_look rfl)
    _ = _ := Crew.run_cons rfl (called _ _)
    _ = _ := Crew.run_cons rfl (caller _ _)
    _ = _ := Crew.run_cons rfl (Worker.step_of_untold rfl)
    _ = _ := Crew.run_cons rfl (Worker.step_of_untold rfl)
    _ = _ := Crew.run_cons rfl rfl
    _ = _ := Crew.run_cons rfl (Worker.step_of_untold rfl)
    _ = _ := Crew.run_cons rfl rfl
    _ = _ := Crew.run_cons rfl (calledEnd _ _)
    _ = _ := Crew.run_cons rfl (callerEnd _ _)

theorem side_by_side_twoModules :
    (Crew.begin setting tree (plansOf analysis analysis.registry)).run turns = some finished ∧
      Interleaving [wovenCaller.events, wovenCalled.events] finished.shop.log ∧
      finished.shop.states.get? callerUnit.name = some .done ∧
      finished.shop.states.get? calledUnit.name = some .done ∧
      (Instrumentation.run analysis analysis.registry { profile with jobs := 1 } tree).units =
        .ok [wovenCaller, wovenCalled] := by
  have ran : (Crew.begin setting tree (plansOf analysis analysis.registry)).run turns =
      some finished := plansOf_analysis ▸ run_turns
  have named : Text.isIdentifier profile.reportVariable = true := by cbv
  obtain ⟨-, -, -, log, rests, units, -⟩ := Instrumentation.side_by_side named checkCalls_analysis
    (settingOf_analysis.symm ▸ ran)
  obtain ⟨-, caller⟩ := rests _ (List.mem_cons_self ..)
  obtain ⟨-, called⟩ := rests _ (List.mem_cons_of_mem _ (List.mem_cons_self ..))
  exact ⟨ran, log, ((caller _ rfl).2 _ rfl).1, ((called _ rfl).2 _ rfl).1, (units _ rfl).symm⟩

end ProbeWeave.Weaving.TwoModules
