import ProbeWeave.Instrumentation
import ProbeWeave.Proofs.Project.Analysed

/-! # Planned modules

Mapping meets every routine of the graph once and plans it in the module it belongs to. The modules
that come out of an instrumentation are woven from these plans.
-/

namespace ProbeWeave

open Syntax Graph Probe Project Weaving Outcome

namespace Weaving

variable {a : Analysis} {registry : Registry}

/-- Every routine that is found is mapped with its definition. -/
theorem mapRoutines_definitions (routines : List Routine) :
    (mapRoutines a routines registry).1.map (·.definition) =
      routines.filterMap fun r => (a.project.caller? r).map (·.definition) := by
  induction routines generalizing registry with
  | nil => rfl
  | cons r rest ih =>
    rw [mapRoutines, List.filterMap_cons]
    cases a.project.caller? r with
    | none => exact ih
    | some caller => exact congrArg (caller.definition :: ·) ih

theorem foldl_addRoutine (routines : List RoutinePlan) (plan : UnitPlan) :
    (routines.foldl UnitPlan.addRoutine plan).unit = plan.unit ∧
      (routines.foldl UnitPlan.addRoutine plan).routines = plan.routines ++ routines := by
  induction routines generalizing plan with
  | nil => simp
  | cons first rest ih =>
    obtain ⟨unit, routines⟩ := ih (plan.addRoutine first)
    refine ⟨unit, ?_⟩
    rw [List.foldl_cons, routines]
    exact List.append_assoc ..

/-- A plan is marked exactly if routines are added to it. -/
theorem state_foldl_addRoutine (routines : List RoutinePlan) (unit : SourceUnit) :
    (routines.foldl UnitPlan.addRoutine (.fresh unit)).state =
      if routines = [] then .unvisited else .mapping := by
  induction routines using List.reverseRecOn with
  | nil => rfl
  | append_singleton before r ih =>
    rw [List.foldl_concat, UnitPlan.addRoutine, ih, if_neg (List.concat_ne_nil r before)]
    by_cases none : before = []
    · simp only [if_pos none]
      rfl
    · simp only [if_neg none]
      rfl

/-- A module in which mapping met a routine is woven. -/
theorem state_begin_foldl {routines : List RoutinePlan} (some : routines ≠ []) (unit : SourceUnit) :
    (routines.foldl UnitPlan.addRoutine (.fresh unit)).begin.state = .applying := by
  rw [UnitPlan.begin, state_foldl_addRoutine, if_neg some]
  rfl

/-- A statement that can be printed has a text. -/
theorem text?_eq_ok {s : Stmt} {text : String} (printable : Printer.obstacle? (.stmt s) = none)
    (printed : s.text = text) : s.text? = .ok text := by
  rw [Stmt.text?, printable, printed]

/-- A definition whose text can be indented is put in the place of the old one. -/
theorem definitionEdit_eq_ok {lines : List String} {old new : Stmt} {text : String} {indented : List String}
    (printed : new.text? = .ok text) (placed : indentCode text (indentationOf lines old) = .ok indented) :
    Setting.definitionEdit lines old new = .ok ⟨firstLine old, old.lines.last, indented⟩ := by
  rw [Setting.definitionEdit, printed]
  simp only [Outcome.mapError_ok, bind, Except.bind, placed]
  rfl

/-- Every definition that is rebuilt has an edit that puts it in its place. -/
theorem exists_definitionEdit {setting : Setting} {edits : List LineEdit} {unit : SourceUnit}
    {lines : List String} {plans : List RoutinePlan}
    (success : (setting.rebuildRoutines unit lines plans).2 = .ok edits) {r : RoutinePlan}
    (member : r ∈ plans) : ∃ e ∈ edits, Setting.definitionEdit lines r.definition.statement
      (withBody r.definition.statement (setting.rebuildBody unit r).1) = .ok e := by
  induction plans generalizing edits with
  | nil => cases member
  | cons plan rest ih =>
    rw [Setting.rebuildRoutines] at success
    generalize first : setting.rebuildRoutine unit lines plan = outcome at success
    obtain ⟨events, fault | edit⟩ := outcome
    · cases success
    · generalize others : setting.rebuildRoutines unit lines rest = outcome at success
      obtain ⟨more, fault | later⟩ := outcome
      · cases success
      · cases success
        rcases List.mem_cons.mp member with rfl | member
        · exact ⟨edit, List.mem_cons_self, congrArg Prod.snd first⟩
        · obtain ⟨e, made, printed⟩ := ih (congrArg Prod.snd others) member
          exact ⟨e, List.mem_cons_of_mem _ made, printed⟩

/-- The edits of a module are those of its rebuilt definitions and, at home, two more. -/
theorem unitEdits_eq_ok {setting : Setting} {plan : UnitPlan} {edits : List LineEdit}
    (success : (setting.unitEdits plan).2 = .ok edits) :
    ∃ rebuilt, (setting.rebuildRoutines plan.unit
        ((Text.sourceLines plan.unit.source).map Text.withoutBreak) (setting.rebuilt plan)).2 =
          .ok rebuilt ∧
      edits = if plan.unit.name = setting.registry.home.module then
        Setting.importEdit plan.unit :: rebuilt ++ [setting.fieldEdit plan.unit
          ((Text.sourceLines plan.unit.source).map Text.withoutBreak)]
      else rebuilt := by
  unfold Setting.unitEdits at success
  dsimp only at success
  generalize found : setting.rebuildRoutines plan.unit _ (setting.rebuilt plan) = outcome at success
  obtain ⟨events, fault | rebuilt⟩ := outcome
  · cases success
  · refine ⟨rebuilt, rfl, ?_⟩
    dsimp only at success
    by_cases home : plan.unit.name = setting.registry.home.module
    · rw [if_pos (by simpa using home)] at success
      rw [if_pos home]
      exact (Except.ok.inj success).symm
    · rw [if_neg (by simpa using home)] at success
      rw [if_neg home]
      exact (Except.ok.inj success).symm

/-- Every routine that is rebuilt has its definition put in its place by an edit of the module. -/
theorem exists_edit_of_rebuilt {setting : Setting} {plan : UnitPlan} {edits : List LineEdit}
    (success : (setting.unitEdits plan).2 = .ok edits) {r : RoutinePlan}
    (member : r ∈ setting.rebuilt plan) : ∃ e ∈ edits,
      Setting.definitionEdit ((Text.sourceLines plan.unit.source).map Text.withoutBreak)
        r.definition.statement
        (withBody r.definition.statement (setting.rebuildBody plan.unit r).1) = .ok e := by
  obtain ⟨rebuilt, built, rfl⟩ := unitEdits_eq_ok success
  obtain ⟨e, made, printed⟩ := exists_definitionEdit built member
  refine ⟨e, ?_, printed⟩
  split
  · exact List.mem_append_left _ (List.mem_cons_of_mem _ made)
  · exact made

/-- Weaving a module makes its edits; without a new module they change nothing. -/
theorem weaveUnit_cases {setting : Setting} {plan : UnitPlan} {woven : Option WovenUnit}
    (success : (setting.weaveUnit plan).2 = .ok woven) :
    ∃ edits, (setting.unitEdits plan).2 = .ok edits ∧
      (edits = [] ∨ applyEdits plan.unit.source edits = plan.unit.source ∨
        ∃ u ∈ woven, u.unit = plan.unit ∧ u.source = applyEdits plan.unit.source edits) := by
  unfold Setting.weaveUnit at success
  dsimp only at success
  generalize setting.unitEdits plan = outcome at success ⊢
  obtain ⟨events, fault | edits⟩ := outcome
  · cases success
  · refine ⟨edits, rfl, ?_⟩
    dsimp only at success
    split at success
    · rename_i same
      rcases Bool.or_eq_true_iff.mp same with none | same
      · exact .inl (List.isEmpty_iff.mp none)
      · exact .inr (.inl (beq_iff_eq.mp same))
    · cases success
      exact .inr (.inr ⟨_, rfl, rfl, rfl⟩)

/-- A woven module has the text that its edits make of the old one. -/
theorem weaveUnit_eq_ok {setting : Setting} {plan : UnitPlan} {u : WovenUnit}
    (woven : (setting.weaveUnit plan).2 = .ok (some u)) :
    ∃ edits, setting.unitEdits plan = (u.events, .ok edits) ∧ u.unit = plan.unit ∧
      u.source = applyEdits plan.unit.source edits := by
  unfold Setting.weaveUnit at woven
  dsimp only at woven
  generalize found : setting.unitEdits plan = outcome at woven ⊢
  obtain ⟨events, fault | edits⟩ := outcome
  · cases woven
  · dsimp only at woven
    split at woven
    · cases woven
    · cases woven
      exact ⟨edits, rfl, rfl, rfl⟩

/-- The plans that weaving starts from. -/
def plansOf (a : Analysis) (registry : Registry) : List UnitPlan :=
  (mapGraph a registry).1.map UnitPlan.begin

theorem unit_begin (plan : UnitPlan) : plan.begin.unit = plan.unit := by
  unfold UnitPlan.begin
  split <;> rfl

theorem routines_begin (plan : UnitPlan) : plan.begin.routines = plan.routines := by
  unfold UnitPlan.begin
  split <;> rfl

/-- A plan has the routines that were mapped in its module. -/
theorem mem_plansOf {plan : UnitPlan} (planned : plan ∈ plansOf a registry) :
    ∃ m ∈ a.project.sortedModules, plan.unit = m.unit ∧
      plan.routines = (mapRoutines a a.graph.routines registry).1.filter fun r =>
        r.definition.routine.module == m.unit.name := by
  obtain ⟨p, mapped, rfl⟩ := List.mem_map.mp planned
  obtain ⟨unit, inProject, rfl⟩ := List.mem_map.mp mapped
  obtain ⟨m, sorted, rfl⟩ := List.mem_map.mp inProject
  obtain ⟨same, routines⟩ := foldl_addRoutine
    ((mapRoutines a a.graph.routines registry).1.filter fun r =>
      r.definition.routine.module == m.unit.name) (.fresh m.unit)
  refine ⟨m, sorted, ?_, ?_⟩
  · rw [unit_begin, same]
    rfl
  · rw [routines_begin, routines]
    rfl

/-- A module is put to be woven exactly if routines are mapped in it. -/
theorem state_plansOf {plan : UnitPlan} (planned : plan ∈ plansOf a registry) :
    plan.state = if plan.routines = [] then .unvisited else .applying := by
  obtain ⟨p, mapped, rfl⟩ := List.mem_map.mp planned
  obtain ⟨unit, -, rfl⟩ := List.mem_map.mp mapped
  rw [routines_begin, (foldl_addRoutine _ _).2, UnitPlan.begin, state_foldl_addRoutine]
  generalize (mapRoutines a a.graph.routines registry).1.filter
    (fun plan => plan.definition.routine.module == unit.name) = own
  cases own with
  | nil => exact state_foldl_addRoutine [] unit
  | cons r rest => rfl

theorem map_unit_distribute (units : List SourceUnit) (routines : List RoutinePlan) :
    (distribute units routines).map (·.unit) = units := by
  rw [distribute, List.map_map]
  exact (List.map_congr_left fun unit _ => (foldl_addRoutine _ (.fresh unit)).1).trans (List.map_id _)

theorem map_unit_begin (plans : List UnitPlan) :
    (plans.map UnitPlan.begin).map (·.unit) = plans.map (·.unit) := by
  rw [List.map_map]
  exact List.map_congr_left fun plan _ => unit_begin plan

/-- There is a plan for each module, in the order of their names. -/
theorem map_unit_plansOf (a : Analysis) (registry : Registry) :
    (plansOf a registry).map (·.unit) = a.project.sortedModules.map (·.unit) := by
  rw [plansOf, map_unit_begin]
  exact map_unit_distribute ..

/-- Modules have different names. -/
theorem nodup_names (known : Known a.project.modules) {plans : List UnitPlan}
    (units : plans.map (·.unit) = a.project.sortedModules.map (·.unit)) :
    (plans.map (·.unit.name)).Nodup := by
  have names : plans.map (·.unit.name) = a.project.sortedNames := by
    have same := congrArg (List.map SourceUnit.name) units
    rw [List.map_map, List.map_map] at same
    exact same.trans (Project.names_sortedModules known)
  rw [names]
  exact Files.nodup_sortNames known.distinct

theorem nodup_plansOf (known : Known a.project.modules) (registry : Registry) :
    ((plansOf a registry).map (·.unit.name)).Nodup :=
  nodup_names known (map_unit_plansOf a registry)

variable {profile : Profile}

/-- The routines of the graph are mapped in their order, each with its own definition. -/
theorem mapRoutines_routines (registry : Registry) (of : a.Of profile) :
    (mapRoutines a a.graph.routines registry).1.map (·.definition.routine) = a.graph.routines := by
  have each : ∀ r ∈ a.graph.routines,
      ((a.project.caller? r).map (·.definition)).map Definition.routine = some r := by
    intro r inGraph
    obtain ⟨caller, found, own⟩ := of.caller? inGraph
    simp [found, own]
  calc (mapRoutines a a.graph.routines registry).1.map (·.definition.routine)
    _ = ((mapRoutines a a.graph.routines registry).1.map (·.definition)).map Definition.routine := by
      rw [List.map_map]
      rfl
    _ = a.graph.routines.filterMap fun r =>
        ((a.project.caller? r).map (·.definition)).map Definition.routine := by
      rw [mapRoutines_definitions, List.map_filterMap]
    _ = a.graph.routines.filterMap some := List.filterMap_congr each
    _ = a.graph.routines := List.filterMap_some

/-- Routines are mapped in a module exactly if it declares one of the graph. -/
theorem routines_eq_nil_iff (of : a.Of profile) {plan : UnitPlan} (planned : plan ∈ plansOf a registry) :
    plan.routines = [] ↔ ¬∃ r ∈ a.graph.routines, r.module = plan.unit.name := by
  obtain ⟨m, -, unit, routines⟩ := mem_plansOf planned
  rw [routines, unit, List.filter_eq_nil_iff]
  conv_rhs => rw [← mapRoutines_routines registry of]
  simp only [beq_iff_eq, List.mem_map, exists_exists_and_eq_and, not_exists, not_and]

/-- A routine that was mapped is a caller with its own definition. -/
theorem caller?_of_mem_mapRoutines (of : a.Of profile) {r : RoutinePlan}
    (mapped : r ∈ (mapRoutines a a.graph.routines registry).1) :
    ∃ caller, a.project.caller? r.definition.routine = some caller ∧
      caller.definition = r.definition := by
  have member := List.mem_map_of_mem (f := RoutinePlan.definition) mapped
  rw [mapRoutines_definitions] at member
  obtain ⟨routine, inGraph, found⟩ := List.mem_filterMap.mp member
  obtain ⟨caller, known, own⟩ := of.caller? inGraph
  rw [known, Option.map_some, Option.some.injEq] at found
  exact ⟨caller, by rw [← found, own, known], found⟩

/-- The module of a routine of the graph is in the project, under its own name. -/
theorem exists_module (of : a.Of profile) {r : Routine} (inGraph : r ∈ a.graph.routines) :
    ∃ m ∈ a.project.sortedModules, m.unit.name = r.module := by
  obtain ⟨caller, found, -⟩ := of.caller? inGraph
  simp only [Project.caller?, bind, Option.bind_eq_some_iff] at found
  obtain ⟨m, held, -⟩ := found
  exact ⟨m, Project.mem_sortedModules_of_get? held,
    of.known.named _ _ (of.known.distinct.get?_eq_some.mp held)⟩

/-- What a planned module has to do with the project: its routines are different ones, and their
definitions are those of the module with their numbers. -/
structure Planned (a : Analysis) (m : Module) (plan : UnitPlan) : Prop where
  inProject : m ∈ a.project.modules.values
  unit : plan.unit = m.unit
  inGraph : ∀ r ∈ plan.routines, r.definition.routine ∈ a.graph.routines
  distinct : (plan.routines.map (·.definition.routine)).Nodup
  numbered : ∀ r ∈ plan.routines, m.definitions[r.definition.routine.ordinal]? = some r.definition

theorem planned_of_mem (of : a.Of profile) {plan : UnitPlan} (member : plan ∈ plansOf a registry) :
    ∃ m, Planned a m plan := by
  obtain ⟨m, sorted, unit, routines⟩ := mem_plansOf member
  have inProject := Project.mem_values_of_mem_sortedModules sorted
  have mapped := mapRoutines_routines registry of
  have inGraph : ∀ r ∈ plan.routines, r.definition.routine ∈ a.graph.routines := by
    intro r planned
    rw [routines] at planned
    rw [← mapped]
    exact List.mem_map_of_mem (List.mem_of_mem_filter planned)
  have distinct : (plan.routines.map (·.definition.routine)).Nodup := by
    rw [routines]
    refine List.Nodup.sublist (List.filter_sublist.map _) ?_
    rw [mapped]
    exact CallTree.nodup_distinct _
  refine ⟨m, inProject, unit, inGraph, distinct, fun r planned => ?_⟩
  rw [routines] at planned
  obtain ⟨inMapped, here⟩ := List.mem_filter.mp planned
  have own : m.unit.name = r.definition.routine.module := (beq_iff_eq.mp here).symm
  have held := own ▸ of.known.get? inProject
  obtain ⟨caller, found, same⟩ := caller?_of_mem_mapRoutines of inMapped
  simp only [Project.caller?, bind, Option.bind_eq_some_iff, pure, Option.some.injEq] at found
  obtain ⟨m', -, d, defined, rfl⟩ := found
  simp only [Project.definition?, bind, Option.bind_eq_some_iff] at defined
  obtain ⟨m'', found, defined⟩ := defined
  obtain rfl : m = m'' := by simpa [held] using found
  rw [defined]
  exact congrArg some same

end Weaving

namespace Instrumentation

/-- What weaving the modules of a project needs. -/
def settingOf (a : Analysis) (registry : Registry) (profile : Profile) : Setting :=
  ⟨a, (mapGraph a registry).2, profile.generateReport, profile.reportVariable,
    profile.reportFile.map Files.Path.text⟩

/-- An instrumentation that is not refused applies the plans. -/
theorem units_run {a : Analysis} {registry : Registry} {profile : Profile} {tree : Files.FileTree}
    (named : Text.isIdentifier profile.reportVariable = true) (jobs : 1 ≤ profile.jobs)
    (checked : checkCalls a = .ok ()) :
    (run a registry profile tree).units =
      (applyPlans (settingOf a registry profile) tree (plansOf a registry)).2.mapError .unit := by
  have enough : ¬profile.jobs < 1 := by omega
  rw [run, named, checked, if_neg enough]
  rfl

section Applying

variable {setting : Setting} {tree : Files.FileTree} {plan : UnitPlan} {plans : List UnitPlan}
  {units : List WovenUnit}

/-- A module comes out of a plan that mapping met, whose file exists and whose edits change it. -/
theorem applyPlan_eq_some {u : WovenUnit} :
    (applyPlan setting tree plan).2 = .ok (some u) ↔ plan.state = .applying ∧
      tree.isFile plan.unit.path.names = true ∧ (setting.weaveUnit plan).2 = .ok (some u) := by
  unfold applyPlan
  split
  · rename_i idle
    simp [show plan.state ≠ .applying by simpa using idle]
  · rename_i met
    split
    · rename_i present
      simp [show plan.state = .applying by simpa using met, present]
    · rename_i absent
      simp [absent]

/-- The modules that come out are those of the plans. -/
theorem mem_applyPlans (success : (applyPlans setting tree plans).2 = .ok units) {u : WovenUnit} :
    u ∈ units ↔ ∃ plan ∈ plans, (applyPlan setting tree plan).2 = .ok (some u) := by
  induction plans generalizing units with
  | nil =>
    cases success
    simp
  | cons plan rest ih =>
    rw [applyPlans] at success
    generalize applied : applyPlan setting tree plan = first at success
    obtain ⟨events, fault | woven⟩ := first
    · cases success
    · generalize others : applyPlans setting tree rest = outcome at success ih
      obtain ⟨more, fault | later⟩ := outcome
      · cases success
      · cases success
        rw [List.mem_append, Option.mem_toList, ih rfl]
        simp [applied]

/-- A module that mapping met is woven if its file exists. -/
theorem applyPlan_of_applying (met : plan.state = .applying)
    (present : tree.isFile plan.unit.path.names = true) :
    applyPlan setting tree plan = setting.weaveUnit plan := by
  rw [applyPlan, met, present]
  rfl

/-- Where all modules can be woven, everything is told one module after the other. -/
theorem events_applyPlans (success : (applyPlans setting tree plans).2 = .ok units) :
    (applyPlans setting tree plans).1 = plans.flatMap (fun plan => (applyPlan setting tree plan).1) ∧
      ∀ plan ∈ plans, ∃ woven, (applyPlan setting tree plan).2 = .ok woven ∧
        ∀ u ∈ woven, u ∈ units := by
  induction plans generalizing units with
  | nil => exact ⟨rfl, nofun⟩
  | cons plan rest ih =>
    rw [applyPlans] at success ⊢
    rw [List.flatMap_cons, List.forall_mem_cons]
    generalize applyPlan setting tree plan = first at success ⊢
    obtain ⟨events, fault | woven⟩ := first
    · cases success
    · generalize applyPlans setting tree rest = others at success ih ⊢
      obtain ⟨more, fault | later⟩ := others
      · cases success
      · cases success
        obtain ⟨told, each⟩ := ih rfl
        refine ⟨congrArg (events ++ ·) told, ⟨woven, rfl, fun u member => ?_⟩, fun p member => ?_⟩
        · exact List.mem_append_left _ (Option.mem_toList.mpr member)
        · obtain ⟨made, applied, kept⟩ := each p member
          exact ⟨made, applied, fun u inMade => List.mem_append_right _ (kept u inMade)⟩

/-- Every module that mapping met is woven if its file exists. -/
theorem woven_of_applyPlans (success : (applyPlans setting tree plans).2 = .ok units)
    (planned : plan ∈ plans) (met : plan.state = .applying)
    (present : tree.isFile plan.unit.path.names = true) :
    ∃ woven, (setting.weaveUnit plan).2 = .ok woven ∧ ∀ u ∈ woven, u ∈ units := by
  obtain ⟨woven, made, kept⟩ := (events_applyPlans success).2 plan planned
  rw [applyPlan_of_applying met present] at made
  exact ⟨woven, made, kept⟩

end Applying

variable {a : Analysis} {registry : Registry} {profile : Profile} {tree : Files.FileTree}

/-- An instrumentation is refused before anything happens, or its plans are applied. -/
theorem run_cases (a : Analysis) (registry : Registry) (profile : Profile) (tree : Files.FileTree) :
    (∃ fault, run a registry profile tree = refused registry fault) ∨
      (run a registry profile tree).registry = (settingOf a registry profile).registry ∧
        (run a registry profile tree).units =
          (applyPlans (settingOf a registry profile) tree (plansOf a registry)).2.mapError .unit ∧
        (run a registry profile tree).events =
          (applyPlans (settingOf a registry profile) tree (plansOf a registry)).1 := by
  unfold run
  split
  · exact .inl ⟨_, rfl⟩
  · split
    · exact .inl ⟨_, rfl⟩
    · split
      · exact .inl ⟨_, rfl⟩
      · exact .inr ⟨rfl, rfl, rfl⟩

/-- Modules come out of an instrumentation whose plans are applied. -/
theorem applied_of_units {units : List WovenUnit}
    (success : (run a registry profile tree).units = .ok units) :
    (run a registry profile tree).registry = (settingOf a registry profile).registry ∧
      (applyPlans (settingOf a registry profile) tree (plansOf a registry)).2 = .ok units ∧
      (run a registry profile tree).events =
        (applyPlans (settingOf a registry profile) tree (plansOf a registry)).1 := by
  rcases run_cases a registry profile tree with ⟨fault, refuses⟩ | ⟨same, applied, told⟩
  · rw [refuses] at success
    cases success
  · exact ⟨same, mapError_eq_ok.mp (applied ▸ success), told⟩

/-- The modules that come out of an instrumentation are woven from their plans. -/
theorem mem_units {units : List WovenUnit}
    (success : (run a registry profile tree).units = .ok units) {u : WovenUnit} (member : u ∈ units) :
    ∃ plan ∈ plansOf a registry,
      ((settingOf a registry profile).weaveUnit plan).2 = .ok (some u) := by
  obtain ⟨plan, planned, made⟩ := (mem_applyPlans (applied_of_units success).2.1).mp member
  exact ⟨plan, planned, (applyPlan_eq_some.mp made).2.2⟩

end Instrumentation

end ProbeWeave
