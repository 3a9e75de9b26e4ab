import Mathlib.Logic.Relation
import ProbeWeave.Proofs.Weaving.HomeGone
import ProbeWeave.Proofs.Weaving.SideBySide
import ProbeWeave.Weaving.Course

/-! # How far modules come

Whatever an instrumentation does next, the table of states says what the plans say, and a module stays in
its state or goes on to the one that follows on it. Nothing is mapped any more once a module was put to be
woven. In the end the modules with a routine of the graph are done, also those whose file is gone, and
the others were never visited.
-/

namespace ProbeWeave.Weaving

open Syntax ProbeWeave.Graph Probe Project Outcome

/-! ### Mapping one routine more -/

section Mapping

variable {a : Analysis} {registry : Registry}

theorem mapRoutines_append (xs ys : List Routine) :
    mapRoutines a (xs ++ ys) registry =
      ((mapRoutines a xs registry).1 ++ (mapRoutines a ys (mapRoutines a xs registry).2).1,
        (mapRoutines a ys (mapRoutines a xs registry).2).2) := by
  induction xs generalizing registry with
  | nil => rfl
  | cons r rest ih =>
    rw [List.cons_append, mapRoutines, mapRoutines]
    cases a.project.caller? r with
    | none => exact ih
    | some caller => simp only [ih, List.cons_append]

/-- A routine more is put to the plan of its module. -/
theorem distribute_concat (units : List SourceUnit) (routines : List RoutinePlan) (r : RoutinePlan) :
    distribute units (routines ++ [r]) = planRoutine r (distribute units routines) := by
  rw [distribute, distribute, planRoutine, List.map_map]
  refine List.map_congr_left fun unit _ => ?_
  rw [Function.comp_apply, List.filter_append, (foldl_addRoutine _ _).1]
  by_cases own : (r.definition.routine.module == unit.name) = true
  · have alone : [r].filter (·.definition.routine.module == unit.name) = [r] :=
      List.filter_cons_of_pos own
    rw [alone, List.foldl_concat]
    exact (if_pos own).symm
  · have none : [r].filter (·.definition.routine.module == unit.name) = [] :=
      List.filter_cons_of_neg own
    rw [none, List.append_nil]
    exact (if_neg own).symm

end Mapping

/-! ### States that go on -/

/-- Modules stay in their states or go on to the next ones. -/
def Forward (before after : Dictionary String UnitState) : Prop :=
  ∀ name, after.get? name = before.get? name ∨
    ∃ s t, before.get? name = some s ∧ s.next? = some t ∧ after.get? name = some t

/-- Modules stay in their states, or they leave one of the states for the next one. -/
def Leave (s : UnitState) (before after : Dictionary String UnitState) : Prop :=
  ∀ name, after.get? name = before.get? name ∨ before.get? name = some s ∧ after.get? name = s.next?

theorem Leave.refl (s : UnitState) (table : Dictionary String UnitState) : Leave s table table :=
  fun _ => .inl rfl

theorem Leave.forward {s : UnitState} {before after : Dictionary String UnitState}
    (leave : Leave s before after) (unfinished : s ≠ .done) : Forward before after := by
  intro name
  rcases leave name with stays | ⟨old, new⟩
  · exact .inl stays
  obtain ⟨t, next⟩ : ∃ t, s.next? = some t := by
    cases s
    case done => exact absurd rfl unfinished
    all_goals exact ⟨_, rfl⟩
  exact .inr ⟨s, t, old, next, new.trans next⟩

/-- Only modules that were not visited get to be mapped. -/
theorem Leave.mapped {s : UnitState} {before after : Dictionary String UnitState}
    (leave : Leave s before after) (late : s ≠ .unvisited) {name : String}
    (held : after.get? name = some .mapping) : before.get? name = some .mapping := by
  rcases leave name with stays | ⟨-, new⟩
  · exact stays.symm.trans held
  · rw [held] at new
    cases s
    case unvisited => exact absurd rfl late
    all_goals cases new

/-- A module that is woven may be done in the end, whatever became of others. -/
theorem Leave.put {before after : Dictionary String UnitState} (leave : Leave .applying before after)
    {name : String} (woven : before.get? name = some .applying) :
    Leave .applying before (after.put name .done) ∧ Leave .applying after (after.put name .done) := by
  constructor
  · intro other
    by_cases same : other = name
    · rw [same, Dictionary.get?_put_self]
      exact .inr ⟨woven, rfl⟩
    · rw [Dictionary.get?_put_of_ne same]
      exact leave other
  · intro other
    by_cases same : other = name
    · rw [same, Dictionary.get?_put_self]
      rcases leave name with stays | ⟨-, finished⟩
      · exact .inr ⟨stays.trans woven, rfl⟩
      · exact .inl finished.symm
    · exact .inl (Dictionary.get?_put_of_ne same ..)

/-- How far the modules of plans have come. -/
def tableOf (plans : List UnitPlan) : Dictionary String UnitState :=
  ⟨plans.map fun plan => (plan.unit.name, plan.state)⟩

theorem keys_tableOf (plans : List UnitPlan) : (tableOf plans).keys = plans.map (·.unit.name) := by
  rw [Dictionary.keys, tableOf, List.map_map]
  rfl

/-- A plan of the same module that stays in its state or leaves a state for the next one. -/
def UnitPlan.Leaves (s : UnitState) (p q : UnitPlan) : Prop :=
  q.unit = p.unit ∧ (q.state = p.state ∨ p.state = s ∧ some q.state = s.next?)

theorem leave_tableOf {s : UnitState} {ps qs : List UnitPlan}
    (leaves : List.Forall₂ (UnitPlan.Leaves s) ps qs) : Leave s (tableOf ps) (tableOf qs) := by
  intro name
  induction leaves with
  | nil => exact .inl rfl
  | @cons p q ps qs step later ih =>
    obtain ⟨unit, state⟩ := step
    simp only [Dictionary.get?, tableOf, List.map_cons, List.lookup_cons, unit] at ih ⊢
    cases name == p.unit.name with
    | false => exact ih
    | true => exact state.imp (congrArg some) (And.imp_left (congrArg some))

theorem leaves_refl (s : UnitState) (plans : List UnitPlan) :
    List.Forall₂ (UnitPlan.Leaves s) plans plans :=
  List.forall₂_same.mpr fun _ _ => ⟨rfl, .inl rfl⟩

/-- Only the plan of its module is changed by a routine, and it leaves no state but the first. -/
theorem leaves_planRoutine (r : RoutinePlan) (plans : List UnitPlan) :
    List.Forall₂ (UnitPlan.Leaves .unvisited) plans (planRoutine r plans) := by
  rw [planRoutine, List.forall₂_map_right_iff]
  refine List.forall₂_same.mpr fun plan _ => ?_
  split
  · refine ⟨rfl, ?_⟩
    rw [UnitPlan.addRoutine]
    dsimp only
    split
    · rename_i unvisited
      exact .inr ⟨beq_iff_eq.mp unvisited, rfl⟩
    · exact .inl rfl
  · exact ⟨rfl, .inl rfl⟩

theorem leaves_begin (plan : UnitPlan) : UnitPlan.Leaves .mapping plan plan.begin := by
  rw [UnitPlan.begin]
  split
  · rename_i mapped
    exact ⟨rfl, .inr ⟨beq_iff_eq.mp mapped, rfl⟩⟩
  · exact ⟨rfl, .inl rfl⟩

section Tables

variable {plans : List UnitPlan} {plan : UnitPlan}

/-- Marking a module changes the state that its plan has in the table. -/
theorem put_tableOf (distinct : (plans.map (·.unit.name)).Nodup) (planned : plan ∈ plans)
    (s : UnitState) : (tableOf plans).put plan.unit.name s =
      tableOf (plans.map fun p => if plan.unit.name == p.unit.name then { p with state := s } else p) := by
  unfold Dictionary.put tableOf
  refine congrArg Dictionary.mk ?_
  rw [List.map_map]
  induction plans with
  | nil => cases planned
  | cons first rest ih =>
    obtain ⟨new, distinct⟩ := List.nodup_cons.mp distinct
    rw [List.map_cons, List.map_cons, Dictionary.putIn, Function.comp_apply]
    by_cases same : plan.unit.name = first.unit.name
    · rw [if_pos (beq_iff_eq.mpr same), if_pos (beq_iff_eq.mpr same)]
      refine congrArg (List.cons _) (List.map_congr_left fun p member => ?_)
      have other : plan.unit.name ≠ p.unit.name := fun again =>
        new (List.mem_map.mpr ⟨p, member, again.symm.trans same⟩)
      rw [Function.comp_apply, if_neg (by simpa using other)]
    · rw [if_neg (by simpa using same), if_neg (by simpa using same)]
      refine congrArg (List.cons _) (ih distinct ((List.mem_cons.mp planned).resolve_left ?_))
      exact fun equal => same (congrArg (·.unit.name) equal)

theorem distinct_tableOf (distinct : (plans.map (·.unit.name)).Nodup) : (tableOf plans).Distinct := by
  rw [Dictionary.Distinct, keys_tableOf]
  exact distinct

/-- The table that all modules are put into is that of their plans. -/
theorem ofList_plans (distinct : (plans.map (·.unit.name)).Nodup) :
    Dictionary.ofList (plans.map fun plan => (plan.unit.name, plan.state)) = tableOf plans :=
  (distinct_tableOf distinct).ofList_entries

theorem get?_tableOf (distinct : (plans.map (·.unit.name)).Nodup) (planned : plan ∈ plans) :
    (tableOf plans).get? plan.unit.name = some plan.state :=
  (distinct_tableOf distinct).get?_eq_some.mpr (List.mem_map_of_mem planned)

/-- A table says nothing that no plan says. -/
theorem exists_of_get?_tableOf (distinct : (plans.map (·.unit.name)).Nodup) {name : String}
    {s : UnitState} (held : (tableOf plans).get? name = some s) :
    ∃ plan ∈ plans, plan.unit.name = name ∧ plan.state = s := by
  obtain ⟨plan, planned, same⟩ := List.mem_map.mp ((distinct_tableOf distinct).get?_eq_some.mp held)
  exact ⟨plan, planned, Prod.mk.inj same⟩

theorem tableOf_map {f g : UnitPlan → UnitPlan}
    (same : ∀ p ∈ plans, (f p).unit.name = (g p).unit.name ∧ (f p).state = (g p).state) :
    tableOf (plans.map f) = tableOf (plans.map g) := by
  refine congrArg Dictionary.mk ?_
  rw [List.map_map, List.map_map]
  refine List.map_congr_left fun p member => ?_
  obtain ⟨name, state⟩ := same p member
  exact Prod.ext name state

/-- The table is kept up when a routine is mapped. -/
theorem markMapping_tableOf (distinct : (plans.map (·.unit.name)).Nodup) (r : RoutinePlan) :
    markMapping r plans (tableOf plans) = tableOf (planRoutine r plans) := by
  rw [markMapping, planRoutine]
  split
  · rename_i first
    obtain ⟨plan, planned, here⟩ := List.any_eq_true.mp first
    obtain ⟨own, unvisited⟩ := Bool.and_eq_true_iff.mp here
    rw [beq_iff_eq.mp own, put_tableOf distinct planned]
    refine tableOf_map fun p member => ?_
    split
    · rename_i same
      obtain rfl := List.inj_on_of_nodup_map distinct planned member (beq_iff_eq.mp same)
      exact ⟨rfl, (if_pos unvisited).symm⟩
    · exact ⟨rfl, rfl⟩
  · rename_i again
    refine (congrArg tableOf (List.map_id plans)).symm.trans (tableOf_map fun p member => ?_)
    dsimp only [id]
    split
    · rename_i own
      have visited : ¬(p.state == .unvisited) = true := fun unvisited =>
        again (List.any_eq_true.mpr ⟨p, member, by rw [own, unvisited]; rfl⟩)
      exact ⟨rfl, (if_neg visited).symm⟩
    · exact ⟨rfl, rfl⟩

/-- The table is kept up when a module is put to be woven. -/
theorem markApplying_tableOf {opened left : List UnitPlan}
    (distinct : ((opened ++ plan :: left).map (·.unit.name)).Nodup) :
    markApplying plan (tableOf (opened ++ plan :: left)) = tableOf (opened ++ plan.begin :: left) := by
  have others : ∀ p ∈ opened ++ left, ¬(plan.unit.name == p.unit.name) = true := by
    have apart := (List.nodup_cons.mp ((List.perm_middle.map _).nodup_iff.mp distinct)).1
    intro p member same
    exact apart (List.mem_map.mpr ⟨p, member, (beq_iff_eq.mp same).symm⟩)
  have kept (ps : List UnitPlan) (among : ps ⊆ opened ++ left) (s : UnitState) :
      (ps.map fun p => if plan.unit.name == p.unit.name then { p with state := s } else p) = ps :=
    (List.map_congr_left fun p member => if_neg (others p (among member))).trans (List.map_id _)
  rw [markApplying, UnitPlan.begin]
  split
  · rw [put_tableOf distinct (by simp), List.map_append, List.map_cons,
      kept _ (List.subset_append_left ..), kept _ (List.subset_append_right ..), if_pos (beq_self_eq_true _)]
  · rfl

end Tables

/-! ### Plans that are finished -/

section Finished

variable {a : Analysis}

theorem unit_finish (plan : UnitPlan) : plan.finish.unit = plan.unit := by
  rw [UnitPlan.finish]
  split
  · rfl
  · rfl

theorem map_unit_finish (plans : List UnitPlan) :
    (plans.map UnitPlan.finish).map (·.unit) = plans.map (·.unit) := by
  rw [List.map_map]
  exact List.map_congr_left fun plan _ => unit_finish plan

/-- The names of modules are sorted, and none stands twice. -/
theorem pairwise_names (known : Known a.project.modules) :
    (a.project.sortedModules.map (·.unit.name)).Pairwise (· < ·) := by
  rw [Project.names_sortedModules known]
  exact (Files.pairwise_sortNames _).imp₂ (fun _ _ => lt_of_le_of_ne)
    (Files.nodup_sortNames known.distinct)

theorem nodup_finished (known : Known a.project.modules) (registry : Registry) :
    (((plansOf a registry).map UnitPlan.finish).map (·.unit.name)).Nodup :=
  nodup_names known ((map_unit_finish _).trans (map_unit_plansOf a registry))

end Finished

/-! ### What holds in the course of an instrumentation -/

/-- The workers have the plans that they began with. -/
theorem Crew.map_plan {setting : Setting} {tree : Files.FileTree} {plans : List UnitPlan} {crew : Crew}
    (agrees : Crew.Agrees setting tree plans crew) : crew.workers.map (·.plan) = plans := by
  have same := congrArg (List.map Prod.fst) agrees.whole
  rw [List.map_map, List.map_map] at same
  exact same.trans (List.map_id _)

namespace Course

variable {a : Analysis} {registry : Registry} {profile : Profile} {tree : Files.FileTree}

/-- The state that modules leave at this stage. -/
def leaving : Course → UnitState
  | mapping .. => .unvisited
  | opening .. => .mapping
  | weaving _ => .applying

theorem leaving_ne_done (c : Course) : c.leaving ≠ .done := by
  cases c <;> exact nofun

/-- What holds of an instrumentation on its way. Its table says what its plans say, and these are the plans
of the routines that were mapped, opened as far as it has come. Then its crew is on the way to
what weaving the plans gives. -/
inductive Sound (a : Analysis) (registry : Registry) (profile : Profile) (tree : Files.FileTree) :
    Course → Prop
  | mapping {mapped left : List Routine} {routines : List RoutinePlan} {after : Registry}
      (all : a.graph.routines = mapped ++ left)
      (met : mapRoutines a mapped registry = (routines, after)) :
      Sound a registry profile tree (.mapping left after
        (distribute (a.project.sortedModules.map (·.unit)) routines)
        (tableOf (distribute (a.project.sortedModules.map (·.unit)) routines)))
  | opening {before left : List UnitPlan} {after : Registry}
      (all : mapGraph a registry = (before ++ left, after)) :
      Sound a registry profile tree (.opening after (before.map UnitPlan.begin) left
        (tableOf (before.map UnitPlan.begin ++ left)))
  | weaving {crew : Crew}
      (agrees : Crew.Agrees (Instrumentation.settingOf a registry profile) tree
        ((plansOf a registry).filter (·.state == .applying)) crew)
      (leave : Leave .applying (tableOf (plansOf a registry)) crew.shop.states) :
      Sound a registry profile tree (.weaving crew)

/-- At the beginning there is a plan for each module in which nothing was mapped. -/
theorem states_begin (of : a.Of profile) : (begin a registry).states =
    tableOf (distribute (a.project.sortedModules.map (·.unit)) []) := by
  have units := map_unit_distribute (a.project.sortedModules.map (·.unit)) []
  have table := ofList_plans (nodup_names of.known units)
  rwa [distribute, List.map_map] at table

theorem sound_begin (of : a.Of profile) : Sound a registry profile tree (begin a registry) := by
  have table : (begin a registry).states = _ := states_begin of
  have begins : Sound a registry profile tree (.mapping a.graph.routines registry _ _) :=
    .mapping (List.nil_append _).symm rfl
  rwa [← table] at begins

theorem unvisited_begin (of : a.Of profile) {m : Module} (member : m ∈ a.project.modules.values) :
    (begin a registry).states.get? m.unit.name = some .unvisited := by
  have units := map_unit_distribute (a.project.sortedModules.map (·.unit)) []
  have sorted := Project.mem_sortedModules_of_get? (of.known.get? member)
  rw [states_begin of]
  exact get?_tableOf (nodup_names of.known units)
    (List.mem_map.mpr ⟨m.unit, List.mem_map_of_mem sorted, rfl⟩)

/-- Whatever is done next keeps what holds, and modules only leave the one state for the next. -/
theorem sound_step (of : a.Of profile) {c c' : Course} (sound : Sound a registry profile tree c)
    (step : Step a profile tree c c') :
    Sound a registry profile tree c' ∧ Leave c.leaving c.states c'.states := by
  cases step with
  | @pass r left after _ _ unknown =>
    cases sound with
    | @mapping mapped _ routines _ all met =>
      have more : a.graph.routines = (mapped ++ [r]) ++ left := by
        rw [all, List.append_assoc, List.singleton_append]
      have again : mapRoutines a (mapped ++ [r]) registry = (routines, after) := by
        rw [mapRoutines_append, met, mapRoutines, unknown]
        exact congrArg (·, after) (List.append_nil routines)
      exact ⟨.mapping more again, .refl _ _⟩
  | @map r left after _ _ caller found =>
    cases sound with
    | @mapping mapped _ routines _ all met =>
      have more : a.graph.routines = (mapped ++ [r]) ++ left := by
        rw [all, List.append_assoc, List.singleton_append]
      have again : mapRoutines a (mapped ++ [r]) registry =
          (routines ++ [(mapRoutine a caller after).1], (mapRoutine a caller after).2) := by
        rw [mapRoutines_append, met, mapRoutines, found]
        rfl
      rw [markMapping_tableOf (nodup_names of.known (map_unit_distribute _ routines))]
      refine ⟨?_, leave_tableOf (leaves_planRoutine _ _)⟩
      rw [← distribute_concat]
      exact .mapping more again
  | @close after _ _ =>
    cases sound with
    | @mapping mapped _ routines _ all met =>
      have graph : mapGraph a registry =
          (distribute (a.project.sortedModules.map (·.unit)) routines, after) := by
        rw [mapGraph, all, List.append_nil, met]
      have next : Sound a registry profile tree (.opening after ([].map UnitPlan.begin) _
          (tableOf ([].map UnitPlan.begin ++ _))) := .opening graph
      exact ⟨next, .refl _ _⟩
  | @mark after _ left plan _ =>
    cases sound with
    | @opening before _ _ all =>
      have more : mapGraph a registry = ((before ++ [plan]) ++ left, after) := by
        rw [all, List.append_assoc, List.singleton_append]
      have units : (before.map UnitPlan.begin ++ plan :: left).map (·.unit) =
          a.project.sortedModules.map (·.unit) := by
        rw [List.map_append, map_unit_begin, ← List.map_append]
        exact (congrArg (·.1.map (·.unit)) all).symm.trans (map_unit_distribute ..)
      have opened : before.map UnitPlan.begin ++ [plan.begin] =
          (before ++ [plan]).map UnitPlan.begin := by
        rw [List.map_append]
        rfl
      have table : before.map UnitPlan.begin ++ plan.begin :: left =
          (before ++ [plan]).map UnitPlan.begin ++ left := by
        rw [← opened, List.append_assoc, List.singleton_append]
      have leaves := List.rel_append (leaves_refl .mapping (before.map UnitPlan.begin))
        (.cons (leaves_begin plan) (leaves_refl .mapping left))
      rw [opened, markApplying_tableOf (nodup_names of.known units), table]
      exact ⟨.opening more, table ▸ leave_tableOf leaves⟩
  | @start after _ _ =>
    cases sound with
    | @opening before _ _ all =>
      rw [List.append_nil] at all
      have plans : before.map UnitPlan.begin = plansOf a registry := by
        rw [plansOf, all]
      have setting : Instrumentation.settingOf a registry profile =
          ⟨a, after, profile.generateReport, profile.reportVariable,
            profile.reportFile.map Files.Path.text⟩ := by
        rw [Instrumentation.settingOf, all]
      rw [List.append_nil, plans, ← setting, ← ofList_plans (nodup_plansOf of.known registry)]
      refine ⟨.weaving (Crew.agrees_begin _) ?_, .refl _ _⟩
      rw [ofList_plans (nodup_plansOf of.known registry)]
      exact .refl _ _
  | @work crew crew' i next =>
    cases sound with
    | weaving agrees leave =>
      obtain ⟨w, w', shop', here, moves, rfl⟩ := Crew.step_eq_some.mp next
      have planned : w.plan ∈ (plansOf a registry).filter (·.state == .applying) :=
        Crew.map_plan agrees ▸ List.mem_map_of_mem (List.mem_of_getElem? here)
      obtain ⟨inPlans, applies⟩ := List.mem_filter.mp planned
      have woven := get?_tableOf (nodup_plansOf of.known registry) inPlans
      rw [beq_iff_eq.mp applies] at woven
      have agrees' := (Crew.agrees_step agrees next).1
      rcases (Worker.advances_of_step moves).states with same | marked
      · refine ⟨.weaving agrees' (same ▸ leave), ?_⟩
        rw [states, states, same]
        exact .refl _ _
      · obtain ⟨all, now⟩ := leave.put woven
        refine ⟨.weaving agrees' (marked ▸ all), ?_⟩
        rw [states, states, marked]
        exact now

/-- Whatever was done, what holds at the beginning holds. -/
theorem sound_run (of : a.Of profile) {c c' : Course} (sound : Sound a registry profile tree c)
    (course : Relation.ReflTransGen (Step a profile tree) c c') : Sound a registry profile tree c' := by
  induction course with
  | refl => exact sound
  | tail _ next ih => exact (sound_step of ih next).1

/-! ### Mapping is over once a module is put to be woven -/

/-- Whether a module was put to be woven. -/
def Applies (c : Course) : Prop :=
  ∃ name, c.states.get? name = some .applying ∨ c.states.get? name = some .done

/-- As long as routines are mapped, no module is put to be woven. -/
theorem Sound.not_mapping (of : a.Of profile) {c : Course} (sound : Sound a registry profile tree c)
    (applies : c.Applies) : c.unmapped = [] ∧ c.leaving ≠ .unvisited := by
  cases sound with
  | @mapping mapped left routines after all met =>
    obtain ⟨name, held⟩ := applies
    have distinct := nodup_names of.known
      (map_unit_distribute (a.project.sortedModules.map (·.unit)) routines)
    have early {s : UnitState} (held : (tableOf (distribute (a.project.sortedModules.map (·.unit))
        routines)).get? name = some s) : s = .unvisited ∨ s = .mapping := by
      obtain ⟨plan, planned, -, rfl⟩ := exists_of_get?_tableOf distinct held
      obtain ⟨unit, -, rfl⟩ := List.mem_map.mp planned
      rw [state_foldl_addRoutine]
      split
      · exact .inl rfl
      · exact .inr rfl
    rcases held with held | held
    · exact absurd (early held) (by decide)
    · exact absurd (early held) (by decide)
  | opening => exact ⟨rfl, nofun⟩
  | weaving => exact ⟨rfl, nofun⟩

/-- A module that is put to be woven or done does not come back. -/
theorem Applies.forward {c c' : Course} (applies : c.Applies) (forward : Forward c.states c'.states) :
    c'.Applies := by
  obtain ⟨name, held⟩ := applies
  refine ⟨name, ?_⟩
  rcases forward name with stays | ⟨s, t, old, next, new⟩
  · rwa [stays]
  · rcases held with held | held
    · obtain rfl := Option.some.inj (old.symm.trans held)
      exact .inr (new.trans next.symm)
    · obtain rfl := Option.some.inj (old.symm.trans held)
      cases next

/-- When the workers begin, all modules that were mapped are put to be woven. -/
theorem Sound.not_mapped (of : a.Of profile) {crew : Crew}
    (sound : Sound a registry profile tree (.weaving crew)) (name : String) :
    crew.shop.states.get? name ≠ some .mapping := by
  cases sound with
  | weaving agrees leave =>
    intro held
    rcases leave name with stays | ⟨-, new⟩
    · obtain ⟨plan, planned, -, state⟩ := exists_of_get?_tableOf
        (nodup_plansOf of.known registry) (stays.symm.trans held)
      rw [state_plansOf planned] at state
      split at state
      · cases state
      · cases state
    · cases held.symm.trans new

/-! ### Every course has an end -/

/-- Modules that are left are put to be woven one after the other. -/
theorem exists_weaving_of_opening (registry : Registry) (opened left : List UnitPlan)
    (states : Dictionary String UnitState) : ∃ crew,
      Relation.ReflTransGen (Step a profile tree) (.opening registry opened left states)
        (.weaving crew) := by
  induction left generalizing opened states with
  | nil => exact ⟨_, .single .start⟩
  | cons plan rest ih =>
    obtain ⟨crew, later⟩ := ih (opened ++ [plan.begin]) (markApplying plan states)
    exact ⟨crew, .head .mark later⟩

theorem exists_weaving (c : Course) :
    ∃ crew, Relation.ReflTransGen (Step a profile tree) c (.weaving crew) := by
  cases c with
  | mapping left registry plans states =>
    induction left generalizing registry plans states with
    | nil =>
      obtain ⟨crew, later⟩ := exists_weaving_of_opening registry [] plans states
      exact ⟨crew, .head .close later⟩
    | cons r rest ih =>
      cases found : a.project.caller? r with
      | none =>
        obtain ⟨crew, later⟩ := ih registry plans states
        exact ⟨crew, .head (.pass found) later⟩
      | some caller =>
        obtain ⟨crew, later⟩ := ih (mapRoutine a caller registry).2 _ _
        exact ⟨crew, .head (.map found) later⟩
  | opening registry opened left states => exact exists_weaving_of_opening registry opened left states
  | weaving crew => exact ⟨crew, .refl⟩

theorem weaving_run {crew last : Crew} {schedule : List Nat} (ran : crew.run schedule = some last) :
    Relation.ReflTransGen (Step a profile tree) (.weaving crew) (.weaving last) := by
  induction schedule generalizing crew with
  | nil =>
    cases ran
    exact .refl
  | cons i later ih =>
    obtain ⟨middle, next, ran⟩ := Option.bind_eq_some_iff.mp ran
    exact .head (.work next) (ih ran)

/-- Every course can be carried to the end. -/
theorem exists_end (of : a.Of profile) {c : Course} (sound : Sound a registry profile tree c) :
    ∃ crew, Relation.ReflTransGen (Step a profile tree) c (.weaving crew) ∧ crew.units?.isSome := by
  obtain ⟨crew, course⟩ : ∃ crew, Relation.ReflTransGen (Step a profile tree) c (.weaving crew) :=
    exists_weaving c
  cases sound_run of sound course with
  | weaving agrees leave =>
    obtain ⟨schedule, last, ran, ended⟩ := Crew.exists_run agrees
    exact ⟨last, course.trans (weaving_run ran), ended⟩

end Course

/-! ### The end -/

theorem gather_eq_ok {outcomes : List (Except UnitFault (Option WovenUnit))} {units : List WovenUnit}
    (success : gather outcomes = .ok units) : ∀ outcome ∈ outcomes, ∃ woven, outcome = .ok woven := by
  induction outcomes generalizing units with
  | nil => exact nofun
  | cons outcome rest ih =>
    cases outcome with
    | error fault => cases success
    | ok woven =>
      rw [gather] at success
      generalize gathered : gather rest = later at success
      cases later with
      | error fault => cases success
      | ok units => exact List.forall_mem_cons.mpr ⟨⟨woven, rfl⟩, ih gathered⟩

/-- If modules come out of a crew, each worker came to an end without a fault. -/
theorem Crew.task_of_units {crew : Crew} {units : List WovenUnit} (ended : crew.units? = some (.ok units))
    {w : Worker} (member : w ∈ crew.workers) : ∃ woven, w.task = .rest (.ok woven) := by
  obtain ⟨outcomes, all, success⟩ := Option.map_eq_some_iff.mp ended
  have rests : w.outcome? ∈ outcomes.map some := mapM_outcome?.mp all ▸ List.mem_map_of_mem member
  obtain ⟨outcome, among, rests⟩ := List.mem_map.mp rests
  obtain ⟨woven, rfl⟩ := gather_eq_ok success outcome among
  have rest : w.whole crew.shop.setting crew.shop.tree = (w.told, .ok woven) ∧
      w.task = .rest (.ok woven) := Worker.whole_of_outcome rests.symm
  exact ⟨woven, rest.2⟩

/-- How far the modules have come that no worker weaves any more. -/
def finalTable (a : Analysis) (registry : Registry) : Dictionary String UnitState :=
  tableOf ((plansOf a registry).map UnitPlan.finish)

section End

variable {a : Analysis} {registry : Registry} {profile : Profile} {tree : Files.FileTree}

/-- In the end modules that declare a routine of the graph are done, and the others were never visited. -/
theorem get?_finalTable (of : a.Of profile) {m : Module} (member : m ∈ a.project.modules.values) :
    (finalTable a registry).get? m.unit.name =
      some (if ∃ r ∈ a.graph.routines, r.module = m.unit.name then .done else .unvisited) := by
  have sorted := Project.mem_sortedModules_of_get? (of.known.get? member)
  obtain ⟨plan, planned, unit⟩ : ∃ plan ∈ plansOf a registry, plan.unit = m.unit :=
    List.mem_map.mp (map_unit_plansOf a registry ▸ List.mem_map_of_mem sorted)
  have held := get?_tableOf (nodup_finished of.known registry) (List.mem_map_of_mem planned)
  rw [unit_finish, unit] at held
  rw [finalTable, held, UnitPlan.finish, state_plansOf planned, ← unit]
  by_cases declares : ∃ r ∈ a.graph.routines, r.module = plan.unit.name
  · have some : plan.routines ≠ [] := fun none => (routines_eq_nil_iff of planned).mp none declares
    rw [if_pos declares, if_neg some]
    rfl
  · have none : plan.routines = [] := (routines_eq_nil_iff of planned).mpr declares
    rw [if_neg declares, if_pos none]
    exact congrArg Option.some ((state_plansOf planned).trans (if_pos none))

/-- If modules come out of a crew, all modules have come to where they come. -/
theorem states_of_ended (of : a.Of profile) {crew : Crew} {units : List WovenUnit}
    (agrees : Crew.Agrees (Instrumentation.settingOf a registry profile) tree
      ((plansOf a registry).filter (·.state == .applying)) crew)
    (leave : Leave .applying (tableOf (plansOf a registry)) crew.shop.states)
    (ended : crew.units? = some (.ok units)) (name : String) :
    crew.shop.states.get? name = (finalTable a registry).get? name := by
  by_cases known : ∃ plan ∈ plansOf a registry, plan.unit.name = name
  · obtain ⟨plan, planned, rfl⟩ := known
    have before := get?_tableOf (nodup_plansOf of.known registry) planned
    have final := get?_tableOf (nodup_finished of.known registry) (List.mem_map_of_mem planned)
    rw [unit_finish, UnitPlan.finish] at final
    rw [finalTable, final]
    split
    · rename_i applies
      have worked : plan ∈ crew.workers.map (·.plan) := by
        rw [Crew.map_plan agrees]
        exact List.mem_filter.mpr ⟨planned, applies⟩
      obtain ⟨w, member, rfl⟩ := List.mem_map.mp worked
      obtain ⟨woven, task⟩ := Crew.task_of_units ended member
      exact agrees.done w member woven task
    · rename_i idle
      refine ((leave _).resolve_right fun left => idle ?_).trans before
      exact beq_iff_eq.mpr (Option.some.inj (before.symm.trans left.1))
  · have none {plans : List UnitPlan}
        (units : plans.map (·.unit) = (plansOf a registry).map (·.unit)) :
        (tableOf plans).get? name = none := by
      rw [← Option.not_isSome_iff_eq_none, ← Dictionary.mem_keys, keys_tableOf]
      intro key
      obtain ⟨plan, planned, rfl⟩ := List.mem_map.mp key
      obtain ⟨other, planned, same⟩ := List.mem_map.mp
        (units ▸ List.mem_map_of_mem (f := UnitPlan.unit) planned)
      exact known ⟨other, planned, congrArg SourceUnit.name same⟩
    have before : (tableOf (plansOf a registry)).get? name = .none := none rfl
    rw [finalTable, none (map_unit_finish _), (leave name).resolve_right, before]
    rintro ⟨applies, -⟩
    cases before.symm.trans applies

end End

end ProbeWeave.Weaving

namespace ProbeWeave.Instrumentation

open Weaving ProbeWeave.Graph Probe Project

variable {a : Analysis} {registry : Registry} {profile : Profile} {tree : Files.FileTree}
  {units : List WovenUnit}

/-- An instrumentation that gives modules back says of all modules how far they have come. -/
theorem states_of_units (success : (run a registry profile tree).units = .ok units) :
    (run a registry profile tree).states = (finalTable a registry).entries := by
  unfold run at success ⊢
  split at success
  · cases success
  · rename_i named
    rw [if_neg named]
    split at success
    · cases success
    · rename_i jobs
      rw [if_neg jobs]
      split at success
      · cases success
      · rfl

/-- The modules that come out stand in the order of their plans. -/
theorem sublist_applyPlans {setting : Setting} {plans : List UnitPlan}
    (success : (applyPlans setting tree plans).2 = .ok units) :
    (units.map (·.unit)).Sublist (plans.map (·.unit)) := by
  induction plans generalizing units with
  | nil =>
    cases success
    exact .slnil
  | cons plan rest ih =>
    rw [applyPlans] at success
    generalize applied : applyPlan setting tree plan = first at success
    obtain ⟨events, fault | woven⟩ := first
    · cases success
    · generalize others : applyPlans setting tree rest = outcome at success ih
      obtain ⟨more, fault | later⟩ := outcome
      · cases success
      · cases success
        have behind := ih rfl
        cases woven with
        | none => exact behind.cons _
        | some u =>
          obtain ⟨-, -, made⟩ := applyPlan_eq_some.mp (congrArg Prod.snd applied)
          obtain ⟨_, -, unit, -⟩ := weaveUnit_eq_ok made
          simp only [Option.toList_some, List.singleton_append, List.map_cons, unit]
          exact behind.cons_cons _

/-- What is given back: every module declares a routine of the graph, and either it is the home or
something is recorded in such a routine. The modules stand in the order of their names. -/
structure Returned (a : Analysis) (registry : Registry) (units : List WovenUnit) : Prop where
  declares : ∀ u ∈ units, ∃ r ∈ a.graph.routines, r.module = u.unit.name
  recorded : ∀ u ∈ units, u.unit.name = registry.home.module ∨
    ∃ r ∈ (mapRoutines a a.graph.routines registry).1,
      r.definition.routine.module = u.unit.name ∧ r.isActive = true
  ordered : units.Pairwise (·.unit.name < ·.unit.name)

theorem returned_of_units (of : a.Of profile) (reached : Reaches a registry)
    (success : (run a registry profile tree).units = .ok units) : Returned a registry units := by
  have applied := (applied_of_units success).2.1
  have home : (settingOf a registry profile).registry.home = registry.home :=
    (maps_mapGraph registry).grows.home
  refine ⟨?_, ?_, ?_⟩
  · intro u member
    obtain ⟨plan, planned, made⟩ := (mem_applyPlans applied).mp member
    obtain ⟨met, -, woven⟩ := applyPlan_eq_some.mp made
    obtain ⟨_, -, unit, -⟩ := weaveUnit_eq_ok woven
    rw [unit]
    by_contra none
    rw [state_plansOf planned, if_pos ((routines_eq_nil_iff of planned).mpr none)] at met
    cases met
  · intro u member
    obtain ⟨plan, planned, made⟩ := (mem_applyPlans applied).mp member
    obtain ⟨-, -, woven⟩ := applyPlan_eq_some.mp made
    obtain ⟨_, -, unit, -⟩ := weaveUnit_eq_ok woven
    rw [unit, ← home]
    refine or_iff_not_imp_left.mpr fun elsewhere => ?_
    obtain ⟨r, rebuilt⟩ := exists_rebuilt elsewhere woven
    obtain ⟨mapped, own⟩ := mapped_of_mem_routines planned (List.mem_of_mem_filter rebuilt)
    exact ⟨r, mapped, own, isActive_of_rebuilt of reached planned elsewhere rebuilt⟩
  · have names := (sublist_applyPlans applied).map SourceUnit.name
    rw [map_unit_plansOf, List.map_map, List.map_map] at names
    exact List.pairwise_map.mp ((pairwise_names of.known).sublist names)

/-- How an instrumentation goes on, whatever it did until now.

No module was visited at the beginning. Whatever is done next, a module stays in its state or goes on to
the one that follows on it. Once a module was put to be woven, no routine is left to be mapped and no
module gets to be mapped, and when the workers begin, none is still in that state. Every course has an
end. If modules are given back, all modules with a routine of the graph are done, whether their files
are there or not, and the others were never visited; the end of any course shows the same. -/
theorem unit_life_cycle {w : Files.World} (analysed : (Analysis.ofProfile w profile).1 = .ok a)
    (reached : Reaches a registry) {c : Course}
    (course : Relation.ReflTransGen (Course.Step a profile tree) (.begin a registry) c) :
    (∀ m ∈ a.project.modules.values,
      (Course.begin a registry).states.get? m.unit.name = some .unvisited) ∧
    (∀ c', Course.Step a profile tree c c' → Forward c.states c'.states) ∧
    (c.Applies → c.unmapped = [] ∧ ∀ c', Course.Step a profile tree c c' → c'.Applies ∧
      ∀ name, c'.states.get? name = some .mapping → c.states.get? name = some .mapping) ∧
    (∀ crew, c = .weaving crew → ∀ name, c.states.get? name ≠ some .mapping) ∧
    (∃ crew, Relation.ReflTransGen (Course.Step a profile tree) c (.weaving crew) ∧
      crew.units?.isSome) ∧
    ∀ units, (run a registry profile tree).units = .ok units →
      (∀ m ∈ a.project.modules.values, (run a registry profile tree).states.lookup m.unit.name =
        some (if ∃ r ∈ a.graph.routines, r.module = m.unit.name then .done else .unvisited)) ∧
      (∀ crew, c = .weaving crew → crew.units?.isSome → crew.units? = some (.ok units) ∧
        ∀ name, c.states.get? name = (run a registry profile tree).states.lookup name) ∧
      Returned a registry units := by
  have of := Analysis.of_ofProfile analysed
  have sound := Course.sound_run of (Course.sound_begin of) course
  refine ⟨fun m => Course.unvisited_begin of, ?_, ?_, ?_, Course.exists_end of sound, ?_⟩
  · exact fun c' next => (Course.sound_step of sound next).2.forward c.leaving_ne_done
  · intro applies
    obtain ⟨none, late⟩ := sound.not_mapping of applies
    refine ⟨none, fun c' next => ?_⟩
    have leave := (Course.sound_step of sound next).2
    exact ⟨applies.forward (leave.forward c.leaving_ne_done), fun name => leave.mapped late⟩
  · rintro crew rfl
    exact sound.not_mapped of
  · intro units success
    refine ⟨fun m member => ?_, ?_, returned_of_units of reached success⟩
    · rw [states_of_units success]
      exact get?_finalTable of member
    · rintro crew rfl ended
      cases sound with
      | weaving agrees leave =>
        obtain ⟨outcome, ended⟩ := Option.isSome_iff_exists.mp ended
        have given := Crew.units_of_agrees agrees ended
        rw [(applied_of_units success).2.1] at given
        subst given
        refine ⟨ended, fun name => ?_⟩
        rw [states_of_units success]
        exact states_of_ended of agrees leave ended name

end ProbeWeave.Instrumentation

namespace ProbeWeave.Weaving.TwoModules

/-- Whatever order the workers of the sample project do their steps in after the file of its home was
taken away, both modules are done in the end, and the other one is given back. -/
theorem unit_life_cycle_withoutHome : ∃ crew,
    Relation.ReflTransGen (Course.Step analysis profile treeWithoutHome)
      (.begin analysis analysis.registry) (.weaving crew) ∧
    crew.units? = some (.ok [wovenCalled]) ∧
    crew.shop.states.get? "a" = some .done ∧ crew.shop.states.get? "b" = some .done := by
  have start : Relation.ReflTransGen (Course.Step analysis profile treeWithoutHome)
      (.begin analysis analysis.registry) (.begin analysis analysis.registry) := .refl
  obtain ⟨-, -, -, -, ⟨crew, course, ended⟩, -⟩ :=
    Instrumentation.unit_life_cycle ofProfile_world .own start
  have units : (Instrumentation.run analysis analysis.registry profile treeWithoutHome).units =
      .ok [wovenCalled] := Instrumentation.units_of_fewer isFile_of_isFile units_twoModules
  obtain ⟨-, -, -, -, -, final⟩ := Instrumentation.unit_life_cycle ofProfile_world .own course
  obtain ⟨given, states⟩ := (final _ units).2.1 crew rfl ended
  rw [Instrumentation.states_of_units units, finalTable, plansOf_analysis] at states
  exact ⟨crew, course, given, states "a", states "b"⟩

end ProbeWeave.Weaving.TwoModules
