import ProbeWeave.Proofs.Weaving.Applied

/-! # When the home is not handed out

A file that is gone costs its own module and no other: the modules that are handed out are those whose
files are there, whatever they refer to. Each of them but the home starts and stops probes of the home,
so without the home nothing they refer to is declared.
-/

namespace ProbeWeave

open Syntax ProbeWeave.Graph Probe Project Weaving Outcome

namespace Weaving

/-! ### What a routine calls upon -/

theorem Piece.started?_eq_some {p : Piece} {w : Wrap} : p.started? = some w ↔ p = .start w := by
  cases p <;> simp [Piece.started?]

theorem Piece.stopped?_eq_some {p : Piece} {w : Wrap} : p.stopped? = some w ↔ p = .stop w := by
  cases p <;> simp [Piece.stopped?]

/-- What pieces start and stop is started and stopped by statements among them. -/
theorem Piece.Balanced.within {site : Site} {ps : List Piece} {ws : List Wrap} {ss : List Stmt}
    (balanced : Balanced site ps ws ss) {w : Wrap} (member : w ∈ ws) :
    (site.start w.probe).Within (renderBlock site ps) ∧
      (site.stop w.probe).Within (renderBlock site ps) := by
  have rendered (p : Piece) (among : p ∈ allOfBlock ps) :
      (render site p).Within (renderBlock site ps) := by
    rw [← Stmt.mem_flatMap_walk, walk_renderBlock balanced.walk]
    exact List.mem_map_of_mem among
  constructor
  · rw [← balanced.started, List.mem_filterMap] at member
    obtain ⟨p, among, starts⟩ := member
    obtain rfl := Piece.started?_eq_some.mp starts
    have within := rendered _ among
    rwa [render] at within
  · rw [← balanced.stopped.mem_iff, List.mem_filterMap] at member
    obtain ⟨p, among, stops⟩ := member
    obtain rfl := Piece.stopped?_eq_some.mp stops
    have within := rendered _ among
    rwa [render] at within

/-- A routine with anything to time has something recorded. -/
theorem exists_recorded {r : RoutinePlan} (active : r.isActive = true) : ∃ w, w ∈ recorded r.body := by
  obtain ⟨mark, marked, active⟩ := List.any_eq_true.mp active
  rw [← Marked.map_nodesOfBlock] at marked
  obtain ⟨x, node, rfl⟩ := List.mem_map.mp marked
  obtain ⟨c, changed⟩ := List.exists_mem_of_ne_nil _ (changesOf_ne_nil active)
  rw [← Wrap.map_change_ofNode] at changed
  obtain ⟨w, own, -⟩ := List.mem_map.mp changed
  exact ⟨w, List.mem_flatMap.mpr ⟨x, node, own⟩⟩

/-- The statements that have to do with the probes of the home: its import, and what starts and stops a
probe. -/
inductive Site.Refers (site : Site) : Stmt → Prop
  | imports : Refers site site.homeImport
  | starts (probe : String) : Refers site (site.start probe)
  | stops (probe : String) : Refers site (site.stop probe)

/-- How the new body of a routine calls upon the home: it imports the home, and it starts and stops a
probe that is declared there. -/
structure CallsUpon (setting : Setting) (unit : SourceUnit) (r : RoutinePlan) (probe : String) :
    Prop where
  declared : probe ∈ setting.registry.fieldNames
  imports : (setting.site unit).homeImport ∈ (setting.rebuildBody unit r).1
  starts : ((setting.site unit).start probe).Within (setting.rebuildBody unit r).1
  stops : ((setting.site unit).stop probe).Within (setting.rebuildBody unit r).1

/-- The new definition of a routine is printed in a woven module, its lines together. -/
structure Printed (setting : Setting) (plan : UnitPlan) (u : WovenUnit) (r : RoutinePlan) : Prop where
  unit : u.unit = plan.unit
  rebuilt : r ∈ setting.rebuilt plan
  text : ∃ e above below,
    Setting.definitionEdit ((Text.sourceLines plan.unit.source).map Text.withoutBreak)
        r.definition.statement
        (withBody r.definition.statement (setting.rebuildBody plan.unit r).1) = .ok e ∧
      u.source = String.join (above ++ e.written (newlineOf plan.unit.source.toList) ++ below)

/-- Whether modules that are handed out without the home print nothing that refers to its probes. -/
def NoneDangling (setting : Setting) (plans : List UnitPlan) (units : List WovenUnit) : Prop :=
  (∀ u ∈ units, u.unit.name ≠ setting.registry.home.module) →
    ∀ u ∈ units, ∀ plan ∈ plans, ∀ r, Printed setting plan u r →
      ∀ t : Stmt, t.Within (setting.rebuildBody plan.unit r).1 → ¬(setting.site plan.unit).Refers t

variable {a : Analysis} {registry : Registry} {profile : Profile} {plan : UnitPlan}

/-- A routine that is rebuilt elsewhere than in the home calls upon the home. -/
theorem callsUpon_of_rebuilt (of : a.Of profile) (reached : Instrumentation.Reaches a registry)
    (planned : plan ∈ plansOf a registry)
    (elsewhere : plan.unit.name ≠
      (Instrumentation.settingOf a registry profile).registry.home.module) {r : RoutinePlan}
    (rebuilt : r ∈ (Instrumentation.settingOf a registry profile).rebuilt plan) :
    ∃ probe, CallsUpon (Instrumentation.settingOf a registry profile) plan.unit r probe := by
  have active := isActive_of_rebuilt of reached planned elsewhere rebuilt
  obtain ⟨w, timed⟩ := exists_recorded active
  obtain ⟨before, rest, imported, -⟩ := Setting.rebuildBody_of_isActive elsewhere active
  have within := (balanced_of_rebuilt _ planned rebuilt).within timed
  rw [Setting.render_pieces] at within
  exact ⟨w.probe, declared_recorded
    (declared_of_mem_routines planned (List.mem_of_mem_filter rebuilt)) w timed,
    imported ▸ List.mem_append_right _ List.mem_cons_self, within.1, within.2⟩

/-- A module is woven if its edits change its text. -/
theorem weaveUnit_eq_some {setting : Setting} {events : List Event} {edits : List LineEdit}
    (made : setting.unitEdits plan = (events, .ok edits)) {u : WovenUnit} :
    (setting.weaveUnit plan).2 = .ok (some u) ↔
      edits ≠ [] ∧ applyEdits plan.unit.source edits ≠ plan.unit.source ∧
        ⟨plan.unit, applyEdits plan.unit.source edits, events⟩ = u := by
  rw [Setting.weaveUnit, made]
  dsimp only
  split
  · rename_i same
    simp only [Bool.or_eq_true, List.isEmpty_iff, beq_iff_eq] at same
    simp only [Except.ok.injEq, reduceCtorEq, false_iff]
    tauto
  · rename_i changed
    simp only [Bool.or_eq_true, List.isEmpty_iff, beq_iff_eq, not_or] at changed
    simp [changed]

/-- The lines of a new definition stand together in the new text of its module. -/
theorem printed_of_rebuilt (of : a.Of profile) {setting : Setting} (planned : plan ∈ plansOf a registry)
    {u : WovenUnit} (woven : (setting.weaveUnit plan).2 = .ok (some u)) {r : RoutinePlan}
    (rebuilt : r ∈ setting.rebuilt plan) : Printed setting plan u r := by
  obtain ⟨edits, made, unit, text⟩ := weaveUnit_eq_ok woven
  have framed := framed_of_unitEdits of planned (congrArg Prod.snd made)
  obtain ⟨e, member, printed⟩ := exists_edit_of_rebuilt (congrArg Prod.snd made) rebuilt
  have first : e.first = (spanOf r).first := by
    have built := printed
    simp only [Setting.definitionEdit, bind_eq_ok, pure_eq_ok] at built
    obtain ⟨_, -, _, -, rfl⟩ := built
    rfl
  have bounds := framed.inside _ (List.mem_map_of_mem rebuilt)
  obtain ⟨above, below, stands⟩ : ∃ above below, spliced (newlineOf plan.unit.source.toList) edits 1
      (closedLines plan.unit.source (newlineOf plan.unit.source.toList)) =
        above ++ e.written (newlineOf plan.unit.source.toList) ++ below :=
    exists_spliced_written _ member (by omega) (by rw [length_closedLines]; omega)
  exact ⟨unit, rebuilt, e, above, below, printed, by rw [text, framed.spliced, stands]⟩

/-- A module other than the home is woven because routines in it are rebuilt. -/
theorem exists_rebuilt {setting : Setting} (elsewhere : plan.unit.name ≠ setting.registry.home.module)
    {u : WovenUnit} (woven : (setting.weaveUnit plan).2 = .ok (some u)) :
    ∃ r, r ∈ setting.rebuilt plan := by
  obtain ⟨edits, made, -, -⟩ := weaveUnit_eq_ok woven
  obtain ⟨some, -⟩ := (weaveUnit_eq_some made).mp woven
  obtain ⟨rebuilt, built, same⟩ := unitEdits_eq_ok (congrArg Prod.snd made)
  rw [if_neg elsewhere] at same
  by_contra none
  rw [List.eq_nil_iff_forall_not_mem.mpr fun r member => none ⟨r, member⟩,
    Setting.rebuildRoutines] at built
  cases built
  exact some same

/-- Modules are planned once. -/
theorem eq_of_name (of : a.Of profile) {other : UnitPlan} (planned : plan ∈ plansOf a registry)
    (again : other ∈ plansOf a registry) (same : plan.unit.name = other.unit.name) : plan = other :=
  List.inj_on_of_nodup_map (nodup_plansOf of.known registry) planned again same

end Weaving

namespace Instrumentation

variable {a : Analysis} {registry : Registry} {profile : Profile} {tree tree' : Files.FileTree}
  {setting : Setting} {plan : UnitPlan} {plans : List UnitPlan} {units : List WovenUnit}

/-! ### Which modules are handed out -/

/-- Of a module whose file is gone nothing is left; others do not depend on it. -/
theorem applyPlan_of_fewer (fewer : ∀ path, tree'.isFile path = true → tree.isFile path = true)
    {woven : Option WovenUnit} (success : (applyPlan setting tree plan).2 = .ok woven) :
    (applyPlan setting tree' plan).2 =
      .ok (woven.filter fun u => tree'.isFile u.unit.path.names) := by
  have own : ∀ u ∈ woven, u.unit = plan.unit := by
    intro u made
    rw [made] at success
    obtain ⟨_, -, unit, -⟩ := weaveUnit_eq_ok (applyPlan_eq_some.mp success).2.2
    exact unit
  have kept (there : Bool) (stays : tree'.isFile plan.unit.path.names = there) :
      (woven.filter fun u => tree'.isFile u.unit.path.names) = if there then woven else none := by
    cases woven with
    | none => cases there <;> rfl
    | some u =>
      rw [Option.filter_some, own u rfl, stays]
  unfold applyPlan at success ⊢
  split at success
  · rename_i idle
    rw [if_pos idle]
    cases success
    rfl
  · rename_i met
    rw [if_neg met]
    cases there : tree'.isFile plan.unit.path.names with
    | true =>
      rw [fewer _ there, if_pos rfl] at success
      rw [if_pos rfl, success, kept true there]
      rfl
    | false =>
      rw [kept false there]
      rfl

/-- Files that are gone take their own modules away, and no other. -/
theorem applyPlans_of_fewer (fewer : ∀ path, tree'.isFile path = true → tree.isFile path = true)
    (success : (applyPlans setting tree plans).2 = .ok units) :
    (applyPlans setting tree' plans).2 =
      .ok (units.filter fun u => tree'.isFile u.unit.path.names) := by
  induction plans generalizing units with
  | nil =>
    cases success
    rfl
  | cons plan rest ih =>
    rw [applyPlans] at success ⊢
    generalize applied : applyPlan setting tree plan = first at success
    obtain ⟨events, fault | woven⟩ := first
    · cases success
    · have kept := applyPlan_of_fewer fewer (congrArg Prod.snd applied)
      generalize others : applyPlans setting tree rest = outcome at success ih
      obtain ⟨more, fault | later⟩ := outcome
      · cases success
      · cases success
        have behind := ih rfl
        generalize applyPlan setting tree' plan = first' at kept ⊢
        obtain ⟨events', result⟩ := first'
        obtain rfl : result = _ := kept
        dsimp only
        rw [behind, List.filter_append]
        cases woven with
        | none => rfl
        | some u =>
          rw [Option.filter_some]
          cases stays : tree'.isFile u.unit.path.names <;> simp [stays]
          all_goals rfl

/-- What an instrumentation hands out depends on the files only when its plans are applied. -/
theorem units_of_applied (success : (run a registry profile tree).units = .ok units) :
    (run a registry profile tree').units =
      (applyPlans (settingOf a registry profile) tree' (plansOf a registry)).2.mapError .unit := by
  unfold run at success ⊢
  split at success
  · cases success
  · rename_i named
    rw [if_neg named]
    split at success
    · cases success
    · rename_i jobs
      rw [if_neg jobs]
      split at success
      · cases success
      · rfl

/-- Files that are gone when the modules are woven take their own modules away, and no other. -/
theorem units_of_fewer (fewer : ∀ path, tree'.isFile path = true → tree.isFile path = true)
    (success : (run a registry profile tree).units = .ok units) :
    (run a registry profile tree').units =
      .ok (units.filter fun u => tree'.isFile u.unit.path.names) := by
  rw [units_of_applied success, applyPlans_of_fewer fewer (applied_of_units success).2.1]
  rfl

/-! ### What the modules need -/

/-- What a module that is handed out prints, and what it needs of the home. -/
structure HandedOut (setting : Setting) (tree : Files.FileTree) (plan : UnitPlan) (u : WovenUnit) :
    Prop where
  unit : u.unit = plan.unit
  present : tree.isFile u.unit.path.names = true
  printed : ∀ r ∈ setting.rebuilt plan, Printed setting plan u r
  /-- All that is printed elsewhere than in the home calls upon the home. -/
  needs : u.unit.name ≠ setting.registry.home.module →
    setting.rebuilt plan ≠ [] ∧
      ∀ r ∈ setting.rebuilt plan, ∃ probe, CallsUpon setting plan.unit r probe

theorem handedOut_of_mem (of : a.Of profile) (reached : Reaches a registry)
    (success : (run a registry profile tree).units = .ok units) {u : WovenUnit} (member : u ∈ units) :
    ∃ plan ∈ plansOf a registry, HandedOut (settingOf a registry profile) tree plan u := by
  obtain ⟨plan, planned, made⟩ := (mem_applyPlans (applied_of_units success).2.1).mp member
  obtain ⟨-, present, woven⟩ := applyPlan_eq_some.mp made
  obtain ⟨_, -, unit, -⟩ := weaveUnit_eq_ok woven
  refine ⟨plan, planned, unit, unit ▸ present, fun r => printed_of_rebuilt of planned woven,
    fun elsewhere => ?_⟩
  rw [unit] at elsewhere
  obtain ⟨r, rebuilt⟩ := exists_rebuilt elsewhere woven
  exact ⟨List.ne_nil_of_mem rebuilt, fun r => callsUpon_of_rebuilt of reached planned elsewhere⟩

/-- The home is handed out if its file is there and its edits change its text. -/
theorem home_iff (of : a.Of profile) (reached : Reaches a registry)
    (success : (run a registry profile tree).units = .ok units) :
    ∃ plan ∈ plansOf a registry,
      plan.unit.name = (settingOf a registry profile).registry.home.module ∧
      ((∃ u ∈ units, u.unit.name = (settingOf a registry profile).registry.home.module) ↔
        tree.isFile plan.unit.path.names = true ∧ ∃ edits,
          ((settingOf a registry profile).unitEdits plan).2 = .ok edits ∧
          HomeEdits (settingOf a registry profile) plan edits ∧
          applyEdits plan.unit.source edits ≠ plan.unit.source) := by
  obtain ⟨plan, planned, m, -, unit, named, met⟩ := exists_homePlan of registry
  have home : plan.unit.name = (settingOf a registry profile).registry.home.module := by
    rw [home_settingOf of reached, unit, named]
    rfl
  have applied := (applied_of_units success).2.1
  refine ⟨plan, planned, home, ?_⟩
  constructor
  · rintro ⟨u, member, same⟩
    obtain ⟨other, again, made⟩ := (mem_applyPlans applied).mp member
    obtain ⟨-, present, woven⟩ := applyPlan_eq_some.mp made
    obtain ⟨edits, edited, own, -⟩ := weaveUnit_eq_ok woven
    obtain rfl := eq_of_name of planned again (by rw [home, ← same, own])
    obtain ⟨-, changed, -⟩ := (weaveUnit_eq_some edited).mp woven
    exact ⟨present, edits, congrArg Prod.snd edited,
      homeEdits_of_unitEdits of planned home (congrArg Prod.snd edited), changed⟩
  · rintro ⟨present, edits, edited, declares, changed⟩
    obtain ⟨_, _, _, inserts, -⟩ := declares.edits
    have made : (settingOf a registry profile).unitEdits plan =
        (((settingOf a registry profile).unitEdits plan).1, .ok edits) := Prod.ext rfl edited
    have woven := (weaveUnit_eq_some made).mpr
      ⟨inserts ▸ List.cons_ne_nil _ _, changed, rfl⟩
    exact ⟨_, (mem_applyPlans applied).mpr
      ⟨plan, planned, applyPlan_eq_some.mpr ⟨met, present, woven⟩⟩, home⟩

/-- Nothing dangles if the home is handed out, or nothing at all. -/
theorem noneDangling_iff (of : a.Of profile) (reached : Reaches a registry)
    (success : (run a registry profile tree).units = .ok units) :
    NoneDangling (settingOf a registry profile) (plansOf a registry) units ↔
      units = [] ∨ ∃ u ∈ units, u.unit.name = (settingOf a registry profile).registry.home.module := by
  constructor
  · intro none
    by_contra without
    obtain ⟨some, homeless⟩ := not_or.mp without
    obtain ⟨u, member⟩ := List.exists_mem_of_ne_nil _ some
    have elsewhere : ∀ u ∈ units,
        u.unit.name ≠ (settingOf a registry profile).registry.home.module :=
      fun u member same => homeless ⟨u, member, same⟩
    obtain ⟨plan, planned, handed⟩ := handedOut_of_mem of reached success member
    obtain ⟨again, calls⟩ := handed.needs (elsewhere u member)
    obtain ⟨r, rebuilt⟩ := List.exists_mem_of_ne_nil _ again
    obtain ⟨probe, calls⟩ := calls r rebuilt
    exact none elsewhere u member plan planned r (handed.printed r rebuilt) _ calls.starts (.starts _)
  · rintro (rfl | ⟨u, member, home⟩) elsewhere
    · exact nofun
    · exact absurd home (elsewhere u member)

/-- Modules are handed out with or without the home that declares their probes.

A file that is gone takes its own module away, and no other. Every module that is handed out has its
file; all routines that it prints call upon the home unless it is the home itself. So nothing dangles
exactly if the home is handed out, too, or nothing at all, and the home is handed out if its file is
there and its edits change its text. -/
theorem dangles_without_home {w : Files.World} (analysed : (Analysis.ofProfile w profile).1 = .ok a)
    (reached : Reaches a registry) (success : (run a registry profile tree).units = .ok units) :
    let setting := settingOf a registry profile
    let plans := plansOf a registry
    (∀ u ∈ units, ∃ plan ∈ plans, HandedOut setting tree plan u) ∧
    (∃ plan ∈ plans, plan.unit.name = setting.registry.home.module ∧
      ((∃ u ∈ units, u.unit.name = setting.registry.home.module) ↔
        tree.isFile plan.unit.path.names = true ∧ ∃ edits, (setting.unitEdits plan).2 = .ok edits ∧
          HomeEdits setting plan edits ∧ applyEdits plan.unit.source edits ≠ plan.unit.source)) ∧
    (NoneDangling setting plans units ↔
      units = [] ∨ ∃ u ∈ units, u.unit.name = setting.registry.home.module) ∧
    ∀ tree', (∀ path, tree'.isFile path = true → tree.isFile path = true) →
      (run a registry profile tree').units =
        .ok (units.filter fun u => tree'.isFile u.unit.path.names) := by
  intro setting plans
  have of := Analysis.of_ofProfile analysed
  exact ⟨fun u => handedOut_of_mem of reached success, home_iff of reached success,
    noneDangling_iff of reached success, fun tree' fewer => units_of_fewer fewer success⟩

end Instrumentation

end ProbeWeave

/-! The sample project after the file of its home was taken away. -/

namespace ProbeWeave.Weaving.TwoModules

/-- The files without the module of the entry routine. -/
def treeWithoutHome : Files.FileTree :=
  ⟨[(["p"], .directory), (["p", "b.py"], .file calledUnit.source.toUTF8)]⟩

theorem isFile_of_isFile (path : List String) (there : treeWithoutHome.isFile path = true) :
    tree.isFile path = true := by
  by_cases called : path = ["p", "b.py"]
  · subst called
    rfl
  · by_cases folder : path = ["p"]
    · subst folder
      cases there
    · cases path with
      | nil => cases there
      | cons name rest =>
        simp [Files.FileTree.isFile, Files.FileTree.at?, treeWithoutHome, List.lookup,
          beq_eq_false_iff_ne.mpr called, beq_eq_false_iff_ne.mpr folder] at there

/-- The home is among the modules that are woven, so nothing dangles; without its file the other module
is still handed out. -/
theorem dangles_without_home_twoModules :
    NoneDangling setting (plansOf analysis analysis.registry) [wovenCaller, wovenCalled] ∧
      (Instrumentation.run analysis analysis.registry profile treeWithoutHome).units =
        .ok [wovenCalled] := by
  obtain ⟨-, -, dangles, fewer⟩ :=
    Instrumentation.dangles_without_home ofProfile_world .own units_twoModules
  rw [settingOf_analysis] at dangles
  exact ⟨dangles.mpr (.inr ⟨wovenCaller, List.mem_cons_self, rfl⟩), fewer _ isFile_of_isFile⟩

/-- Without the file of its home, the sample project gets a module that refers to probes and no module
that declares them. -/
theorem dangling_twoModules : (Analysis.ofProfile world profile).1 = .ok analysis ∧
    (Instrumentation.run analysis analysis.registry profile treeWithoutHome).units =
      .ok [wovenCalled] ∧
    wovenCalled.source =
      "def f():\n    import a as _timetrack_home\n    _timetrack_home.probe2_g.start()\n" ++
      "    g()\n    _timetrack_home.probe2_g.stop()\n\n\ndef g():\n    pass\n" ∧
    ¬NoneDangling setting (plansOf analysis analysis.registry) [wovenCalled] := by
  have units : (Instrumentation.run analysis analysis.registry profile treeWithoutHome).units =
      .ok [wovenCalled] := Instrumentation.units_of_fewer isFile_of_isFile units_twoModules
  have dangles := Instrumentation.noneDangling_iff (Analysis.of_ofProfile ofProfile_world) .own units
  rw [settingOf_analysis] at dangles
  refine ⟨ofProfile_world, units, rfl, fun none => ?_⟩
  rcases dangles.mp none with none | ⟨u, member, home⟩
  · cases none
  · rw [List.mem_singleton.mp member] at home
    exact absurd home (by decide)

end ProbeWeave.Weaving.TwoModules
