import ProbeWeave.Proofs.Weaving.HomeModule
import ProbeWeave.Proofs.Weaving.Mapped
import ProbeWeave.Proofs.Weaving.RebuiltBody

/-! # References to probes

All probes that an instrumented program refers to are fields of its registry, under different names,
and the home declares each of them. Where another module refers to them, it has imported the home.
-/

/-! ### Probes that a report reads

Every line of a report reads a probe of the registry, by the names that lead to it within the home. -/

namespace ProbeWeave.Report

open ProbeWeave.Graph Probe

namespace Outfit

variable {o : Outfit}

/-- Whether a line reads a probe that the registry has. -/
def Refers (o : Outfit) (line : Line) : Prop :=
  ∃ name ∈ o.registry.fieldNames, line.probe = o.probeRef name

theorem refers_methodLine (r : Routine) (depth : Nat) : ∀ line ∈ o.methodLine r depth, o.Refers line := by
  intro line member
  unfold methodLine at member
  split at member
  · rename_i probe found
    split at member
    · cases member
    · obtain rfl := List.mem_singleton.mp member
      exact ⟨probe.name,
        List.mem_append_left _ (List.mem_map_of_mem (List.mem_of_find?_eq_some found)), rfl⟩
  · cases member

theorem refers_loopLines (known : o.loops ⊆ o.registry.loops) (r : Routine) (depth : Nat) :
    ∀ line ∈ o.loopLines r depth, o.Refers line := by
  intro line member
  obtain ⟨loop, shown, rfl⟩ := List.mem_map.mp member
  exact ⟨loop.name,
    List.mem_append_right _ (List.mem_map_of_mem (known (List.mem_filter.mp shown).1)), rfl⟩

mutual

theorem refers_linesFrom (known : o.loops ⊆ o.registry.loops) (seen : List Routine) (depth : Nat) :
    ∀ t : CallTree, ∀ line ∈ (o.linesFrom seen depth t).1, o.Refers line
  | .node routine children => by
    intro line member
    rw [linesFrom] at member
    split at member
    · exact refers_linesAll known seen (depth + 1) children line member
    · simp only [List.mem_append] at member
      rcases member with (own | below) | loop
      · exact refers_methodLine routine depth line own
      · exact refers_linesAll known (routine :: seen) (depth + 1) children line below
      · exact refers_loopLines known routine (depth + 1) line loop

theorem refers_linesAll (known : o.loops ⊆ o.registry.loops) (seen : List Routine) (depth : Nat) :
    ∀ ts : List CallTree, ∀ line ∈ (o.linesAll seen depth ts).1, o.Refers line
  | [] => by
    intro line member
    rw [linesAll] at member
    cases member
  | t :: ts => by
    intro line member
    rw [linesAll] at member
    rcases List.mem_append.mp member with first | others
    · exact refers_linesFrom known seen depth t line first
    · exact refers_linesAll known _ depth ts line others

end

theorem refers_lines (known : o.loops ⊆ o.registry.loops) (graph : CallTree) :
    ∀ line ∈ o.lines graph, o.Refers line := by
  intro line member
  rcases List.mem_append.mp member with below | loop
  · exact refers_linesAll known [graph.routine] 1 graph.children line below
  · exact refers_loopLines known graph.routine 1 line loop

end Outfit

/-- Every line of a report reads a probe of the registry. -/
theorem refers_build (exclusions : List String) (registry : Registry) (graph : CallTree) :
    ∀ line ∈ build exclusions registry graph,
      Outfit.Refers ⟨registry, exclusions, registry.loops⟩ line :=
  Outfit.refers_lines (List.Subset.refl _) graph

end ProbeWeave.Report

/-! ### Probes that a program refers to -/

namespace ProbeWeave

open Syntax ProbeWeave.Graph Probe Project Weaving Outcome

namespace Instrumentation

/-- The registries that an analysis is instrumented with: its own, and those to which
instrumentations have added loop probes. -/
inductive Reaches (a : Analysis) : Registry → Prop
  | own : Reaches a a.registry
  | again {registry : Registry} (reached : Reaches a registry) (profile : Profile)
      (tree : Files.FileTree) : Reaches a (run a registry profile tree).registry

variable {a : Analysis} {registry : Registry} {profile : Profile} {tree : Files.FileTree}

/-- Loop probes are added, and all names stay different. -/
theorem Reaches.invariant (of : a.Of profile) (reached : Reaches a registry) :
    a.registry.Grows registry ∧ registry.Ordered := by
  induction reached with
  | own =>
    rw [of.registry]
    exact ⟨.refl _, Registry.ordered_ofGraph _ _⟩
  | @again before _ profile tree ih =>
    have maps := maps_mapGraph (a := a) before
    rcases run_cases a before profile tree with ⟨fault, refuses⟩ | ⟨same, -⟩
    · rwa [refuses]
    · rw [same]
      exact ⟨ih.1.trans maps.grows, maps.ordered ih.2⟩

theorem home_settingOf (of : a.Of profile) (reached : Reaches a registry) :
    (settingOf a registry profile).registry.home = homeOf a.entry := by
  rw [settingOf, (maps_mapGraph registry).grows.home, (reached.invariant of).1.home, of.registry]
  rfl

end Instrumentation

namespace Weaving

variable {a : Analysis} {registry : Registry} {profile : Profile}

/-- Every routine that is mapped is mapped on its own, with the registry that those before it left. -/
theorem exists_mapRoutine {routines : List Routine} {r : RoutinePlan}
    (mapped : r ∈ (mapRoutines a routines registry).1) :
    ∃ caller before, r = (mapRoutine a caller before).1 := by
  induction routines generalizing registry with
  | nil => cases mapped
  | cons routine rest ih =>
    rw [mapRoutines] at mapped
    cases found : a.project.caller? routine with
    | none =>
      rw [found] at mapped
      exact ih mapped
    | some caller =>
      rw [found] at mapped
      rcases List.mem_cons.mp mapped with rfl | mapped
      · exact ⟨caller, registry, rfl⟩
      · exact ih mapped

/-- Mapping marks the body of a routine. -/
theorem marked_of_mem_mapRoutines {routines : List Routine} {r : RoutinePlan}
    (mapped : r ∈ (mapRoutines a routines registry).1) :
    ∃ (timing : Timing) (m : Mapping), r.body = (timing.markBlock r.definition.body m).1 := by
  obtain ⟨caller, before, rfl⟩ := exists_mapRoutine mapped
  exact ⟨timingOf a before caller, _, rfl⟩

/-- What the rebuilt routines of a module refer to. -/
structure Refers (setting : Setting) (plan : UnitPlan) : Prop where
  statements : ∀ r ∈ setting.rebuilt plan, ∀ t : Stmt,
    t.Within (setting.rebuildBody plan.unit r).1 → setting.Origin plan.unit r t
  imported : plan.unit.name ≠ setting.registry.home.module → ∀ r ∈ setting.rebuilt plan,
    ∃ before rest, (setting.rebuildBody plan.unit r).1 =
        before ++ (setting.site plan.unit).homeImport :: rest ∧
      (before = [] ∨ ∃ text, text.isText = true ∧ before = [text])

/-- The report is given in the home. -/
theorem reads_build {setting : Setting} {unit : SourceUnit}
    (home : unit.name = setting.registry.home.module) :
    setting.Reads unit
      (Report.build setting.analysis.exclusions setting.registry setting.analysis.graph) := by
  intro line member
  obtain ⟨name, declared, reads⟩ := Report.refers_build _ _ _ line member
  refine ⟨name, declared, reads.trans ?_⟩
  simp [Report.Outfit.probeRef, Site.probeRef, Setting.site, Home.reference, home]

/-- The routines of a planned module were mapped, and they belong to it. -/
theorem mapped_of_mem_routines {plan : UnitPlan} (planned : plan ∈ plansOf a registry)
    {r : RoutinePlan} (member : r ∈ plan.routines) :
    r ∈ (mapRoutines a a.graph.routines registry).1 ∧
      r.definition.routine.module = plan.unit.name := by
  obtain ⟨m, -, unit, routines⟩ := mem_plansOf planned
  rw [routines] at member
  obtain ⟨mapped, here⟩ := List.mem_filter.mp member
  exact ⟨mapped, by rw [unit]; exact beq_iff_eq.mp here⟩

/-- A routine is planned with the definition that is found for it. -/
theorem definition_eq_of_routine {profile : Profile} (of : a.Of profile) {plan : UnitPlan}
    (planned : plan ∈ plansOf a registry) {r : RoutinePlan} (member : r ∈ plan.routines)
    {d : Definition} (same : r.definition.routine = d.routine)
    (found : (a.project.caller? d.routine).map (·.definition) = some d) : r.definition = d := by
  obtain ⟨caller, known, own⟩ :=
    caller?_of_mem_mapRoutines of (mapped_of_mem_routines planned member).1
  rw [← same, known, Option.map_some, own] at found
  exact Option.some.inj found

/-- The probes of a mapped routine are declared. -/
theorem declared_of_mem_routines {plan : UnitPlan} (planned : plan ∈ plansOf a registry)
    {r : RoutinePlan} (member : r ∈ plan.routines) :
    Declared (Instrumentation.settingOf a registry profile).registry.fieldNames
      (Marked.marksOfBlock r.body) := fun mark marked =>
  (maps_mapGraph (a := a) registry).declared mark
    (List.mem_flatMap.mpr ⟨r, (mapped_of_mem_routines planned member).1, marked⟩)

/-- The routine that gets the report is in the home. -/
theorem home_of_reports (of : a.Of profile) (reached : Instrumentation.Reaches a registry)
    {plan : UnitPlan} (planned : plan ∈ plansOf a registry) {r : RoutinePlan}
    (member : r ∈ plan.routines)
    (reports : (Instrumentation.settingOf a registry profile).reports r.definition.routine = true) :
    plan.unit.name = (Instrumentation.settingOf a registry profile).registry.home.module := by
  have entry : r.definition.routine = a.entry := by
    rw [← ProgramModel.callGraph_root of.graph]
    exact beq_iff_eq.mp (Bool.and_eq_true_iff.mp reports).2
  rw [Instrumentation.home_settingOf of reached, ← (mapped_of_mem_routines planned member).2, entry]
  rfl

/-- In other modules than the home a routine is rebuilt because it has something to time. -/
theorem isActive_of_rebuilt (of : a.Of profile) (reached : Instrumentation.Reaches a registry)
    {plan : UnitPlan} (planned : plan ∈ plansOf a registry)
    (elsewhere : plan.unit.name ≠
      (Instrumentation.settingOf a registry profile).registry.home.module) {r : RoutinePlan}
    (rebuilt : r ∈ (Instrumentation.settingOf a registry profile).rebuilt plan) :
    r.isActive = true := by
  obtain ⟨member, rebuilds⟩ := List.mem_filter.mp rebuilt
  rcases Bool.or_eq_true_iff.mp rebuilds with active | reports
  · exact active
  · exact absurd (home_of_reports of reached planned member reports) elsewhere

/-- The rebuilt routines of a planned module refer to declared probes only. -/
theorem refers_of_mem (of : a.Of profile) (reached : Instrumentation.Reaches a registry)
    {plan : UnitPlan} (planned : plan ∈ plansOf a registry) :
    Refers (Instrumentation.settingOf a registry profile) plan := by
  refine ⟨fun r rebuilt t within => ?_, fun elsewhere r rebuilt => ?_⟩
  · have member := List.mem_of_mem_filter rebuilt
    obtain ⟨timing, m, marked⟩ :=
      marked_of_mem_mapRoutines (mapped_of_mem_routines planned member).1
    exact Setting.origin_rebuildBody (declared_of_mem_routines planned member) marked
      (fun reports => reads_build (home_of_reports of reached planned member reports)) within
  · exact Setting.rebuildBody_of_isActive elsewhere
      (isActive_of_rebuilt of reached planned elsewhere rebuilt)

end Weaving

namespace Instrumentation

/-- Reference closure: the probes that inserted statements refer to are fields of the registry, which
have different names; the home declares each of them, below the import of the stopwatch; and other
modules import the home before they refer to a probe. -/
theorem references_closed {w : Files.World} {profile : Profile} {a : Analysis} {registry : Registry}
    {tree : Files.FileTree} {units : List WovenUnit}
    (analysed : (Analysis.ofProfile w profile).1 = .ok a) (reached : Reaches a registry)
    (present : ∀ m ∈ a.project.modules.values, tree.isFile m.unit.path.names = true)
    (success : (run a registry profile tree).units = .ok units) :
    (run a registry profile tree).registry = (settingOf a registry profile).registry ∧
      (run a registry profile tree).registry.fieldNames.Nodup ∧
      (∃ plan ∈ plansOf a registry, ∃ edits,
        plan.unit.name = (settingOf a registry profile).registry.home.module ∧
        ((settingOf a registry profile).unitEdits plan).2 = .ok edits ∧
        HomeEdits (settingOf a registry profile) plan edits ∧
        (applyEdits plan.unit.source edits = plan.unit.source ∨
          ∃ u ∈ units, u.unit = plan.unit ∧ u.source = applyEdits plan.unit.source edits)) ∧
      ∀ u ∈ units, ∃ plan ∈ plansOf a registry,
        ((settingOf a registry profile).weaveUnit plan).2 = .ok (some u) ∧
        Refers (settingOf a registry profile) plan := by
  have of := Analysis.of_ofProfile analysed
  obtain ⟨same, applied, -⟩ := applied_of_units success
  refine ⟨same, ?_, ?_, fun u member => ?_⟩
  · rw [same]
    exact ((maps_mapGraph registry).ordered (reached.invariant of).2).nodup
  · obtain ⟨plan, planned, m, inProject, unit, named, met⟩ := exists_homePlan of registry
    have home : plan.unit.name = (settingOf a registry profile).registry.home.module := by
      rw [home_settingOf of reached, unit, named]
      rfl
    obtain ⟨woven, made, kept⟩ := woven_of_applyPlans applied planned met
      (unit ▸ present m inProject)
    obtain ⟨edits, built, cases⟩ := weaveUnit_cases made
    have edited := homeEdits_of_unitEdits of planned home built
    refine ⟨plan, planned, edits, home, built, edited, ?_⟩
    rcases cases with none | same | ⟨u, member, unit, text⟩
    · obtain ⟨_, _, _, some, -⟩ := edited.edits
      rw [none] at some
      cases some
    · exact .inl same
    · exact .inr ⟨u, kept u member, unit, text⟩
  · obtain ⟨plan, planned, woven⟩ := mem_units success member
    exact ⟨plan, planned, woven, refers_of_mem of reached planned⟩

end Instrumentation

end ProbeWeave

/-! The sample project. -/

namespace ProbeWeave.Weaving.TwoModules

theorem isFile_of_mem : ∀ m ∈ analysis.project.modules.values,
    tree.isFile m.unit.path.names = true := by
  have modules : analysis.project.modules.values = [callerUnit.index, calledUnit.index] := rfl
  rw [modules, List.forall_mem_cons, List.forall_mem_singleton, Project.SourceUnit.index_unit,
    Project.SourceUnit.index_unit]
  exact ⟨rfl, rfl⟩

theorem references_closed_twoModules :
    (Instrumentation.run analysis analysis.registry profile tree).units =
        .ok [wovenCaller, wovenCalled] ∧
      (Instrumentation.run analysis analysis.registry profile tree).registry.fieldNames.Nodup ∧
      (∃ plan ∈ plansOf analysis analysis.registry, ∃ edits, plan.unit.name = "a" ∧
        HomeEdits setting plan edits) ∧
      ∃ plan ∈ plansOf analysis analysis.registry,
        (setting.weaveUnit plan).2 = .ok (some wovenCalled) ∧ Refers setting plan := by
  obtain ⟨-, distinct, home, each⟩ := Instrumentation.references_closed ofProfile_world .own
    isFile_of_mem units_twoModules
  rw [settingOf_analysis] at home each
  obtain ⟨plan, planned, edits, named, -, declares, -⟩ := home
  exact ⟨units_twoModules, distinct, ⟨plan, planned, edits, named, declares⟩,
    each wovenCalled (by simp)⟩

end ProbeWeave.Weaving.TwoModules
