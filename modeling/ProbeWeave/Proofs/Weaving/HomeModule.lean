import ProbeWeave.Proofs.Splicing.Frame

/-! # Where the probes are declared

The module of the entry routine is planned and woven. Its probes are declared below the import of the
stopwatch, one on each line.
-/

namespace ProbeWeave

open Syntax ProbeWeave.Graph Probe Project Weaving Outcome

/-! ### The order of the lines -/

namespace Weaving

variable {last : Nat} {body : List Stmt} {passed : Stmt → Bool}

theorem behindText_sublist (body : List Stmt) : (behindText body).Sublist body := by
  unfold behindText
  split
  · split
    · exact List.sublist_cons_self _ _
    · exact .refl _
  · exact .refl _

/-- The first statement that is not passed over begins on no later line than others behind a text
that are not. -/
theorem lineBehind_le_firstLine (lie : Lie 1 last body) {t : Stmt} (behind : t ∈ behindText body)
    (stops : passed t = false) : lineBehind body passed ≤ firstLine t := by
  unfold lineBehind
  split
  · rename_i s found
    obtain ⟨-, early, late, split, before⟩ := List.find?_eq_some_iff_append.mp found
    have ordered := lie.ordered.sublist (behindText_sublist body)
    rw [split] at behind ordered
    rcases List.mem_append.mp behind with earlier | here
    · have skipped := before t earlier
      simp [stops] at skipped
    · rcases List.mem_cons.mp here with rfl | later
      · exact Nat.le_refl _
      · have precedes := (List.pairwise_cons.mp (List.pairwise_append.mp ordered).2.1).1 t later
        have member : s ∈ body := mem_of_mem_behindText (List.mem_of_find?_eq_some found)
        exact Nat.le_trans (lie.inside s member).2.1 precedes.1
  · rename_i none
    have skipped := List.find?_eq_none.mp none t behind
    simp [stops] at skipped

theorem firstLine_le_getLast (lie : Lie 1 last body) {s l : Stmt} (member : s ∈ body)
    (ends : body.getLast? = some l) : firstLine s ≤ l.lines.last := by
  obtain ⟨early, rfl⟩ := List.getLast?_eq_some_iff.mp ends
  have bounds := lie.inside s member
  have final := lie.inside l (List.mem_append_right _ List.mem_cons_self)
  rcases List.mem_append.mp member with earlier | here'
  · have precedes := (List.pairwise_append.mp lie.ordered).2.2 s earlier l List.mem_cons_self
    have order := precedes.1
    omega
  · rw [List.mem_singleton.mp here'] at bounds ⊢
    exact bounds.2.1

/-- Passing over more statements leads further down. -/
theorem lineBehind_le (lie : Lie 1 last body) {more : Stmt → Bool}
    (less : ∀ s, passed s = true → more s = true) : lineBehind body passed ≤ lineBehind body more := by
  cases found : (behindText body).find? fun s => !more s with
  | some t =>
    have stops : passed t = false := by
      have stopped := List.find?_some found
      by_contra passes
      simp [less t (by simpa using passes)] at stopped
    have ends : lineBehind body more = firstLine t := by rw [lineBehind, found]
    rw [ends]
    exact lineBehind_le_firstLine lie (List.mem_of_find?_eq_some found) stops
  | none =>
    have ends : lineBehind body more =
        (body.getLast?.map fun l => l.lines.last + 1).getD 1 := by
      rw [lineBehind, found]
      cases body.getLast? <;> rfl
    rw [ends]
    unfold lineBehind
    split
    · rename_i s stops
      have member := mem_of_mem_behindText (List.mem_of_find?_eq_some stops)
      cases final : body.getLast? with
      | none =>
        rw [List.getLast?_eq_none_iff.mp final] at member
        cases member
      | some l =>
        have order := firstLine_le_getLast lie member final
        rw [Option.map_some, Option.getD_some]
        omega
    · cases body.getLast? <;> rfl

/-- The probes are declared on no line above the import of the stopwatch. -/
theorem importEdit_le_fieldEdit (setting : Setting) {unit : SourceUnit} (lie : Lie 1 last unit.body)
    (nested : ∀ s ∈ unit.body, Nested s) (lines : List String) :
    (Setting.importEdit unit).first ≤ (setting.fieldEdit unit lines).first := by
  obtain ⟨line, indentation, field, inClass | rfl⟩ := fieldEdit_cases setting unit lines
  · obtain ⟨span, name, bases, keywords, inner, decorators, member, -, s, found, rfl⟩ := inClass
    have within : Lie span.first span.last inner := nested _ member
    have behind := (mem_behindText_or_isText member).resolve_right (by simp [Stmt.isText])
    have start : lineBehind unit.body isFutureImport ≤ _ := lineBehind_le_firstLine lie behind rfl
    have head := firstLine_le (.classDef span name bases keywords inner decorators)
    have bounds := (within.inside s (mem_of_fieldAnchor? found)).1
    replace head : firstLine (.classDef span name bases keywords inner decorators) ≤ span.first := head
    rw [field]
    simp only [Setting.importEdit, LineEdit.insertAt]
    omega
  · have order : lineBehind unit.body isFutureImport ≤ lineBehind unit.body isImport :=
      lineBehind_le lie fun s passes => by cases s <;> first | rfl | cases passes
    rw [field]
    simp only [Setting.importEdit, LineEdit.insertAt]
    omega

/-! ### The plan of the home -/

variable {a : Analysis} {registry : Registry} {profile : Profile}

theorem entry_mem_routines (of : a.Of profile) : a.entry ∈ a.graph.routines := by
  rw [CallTree.mem_routines, ← ProgramModel.callGraph_root of.graph]
  exact CallTree.routine_mem_occurrences List.mem_cons_self

/-- The entry routine is mapped. -/
theorem exists_mapped_entry (of : a.Of profile) (registry : Registry) :
    ∃ r ∈ (mapRoutines a a.graph.routines registry).1, r.definition.routine = a.entry := by
  have inGraph := entry_mem_routines of
  rw [← mapRoutines_routines registry of] at inGraph
  exact List.mem_map.mp inGraph

/-- The module of the entry routine is planned. -/
theorem exists_homePlan (of : a.Of profile) (registry : Registry) :
    ∃ plan ∈ plansOf a registry, ∃ m ∈ a.project.modules.values, plan.unit = m.unit ∧
      m.unit.name = a.entry.module ∧ plan.state = .applying := by
  obtain ⟨m, sorted, named⟩ := exists_module of (entry_mem_routines of)
  have inProject := Project.mem_values_of_mem_sortedModules sorted
  obtain ⟨r, mapped, routine⟩ := exists_mapped_entry of registry
  have met : (mapRoutines a a.graph.routines registry).1.filter
      (fun plan => plan.definition.routine.module == m.unit.name) ≠ [] :=
    List.ne_nil_of_mem (List.mem_filter.mpr ⟨mapped, by simp [routine, named]⟩)
  refine ⟨_, List.mem_map_of_mem (List.mem_map_of_mem (List.mem_map_of_mem sorted)), m, inProject,
    ?_, named, state_begin_foldl met m.unit⟩
  rw [unit_begin, (foldl_addRoutine _ _).1]
  rfl

/-- The plan of the home holds the entry routine. -/
theorem exists_entry_of_home (of : a.Of profile) {plan : UnitPlan} (planned : plan ∈ plansOf a registry)
    (home : plan.unit.name = a.entry.module) :
    ∃ r ∈ plan.routines, r.definition.routine = a.entry := by
  obtain ⟨m, -, own, routines⟩ := mem_plansOf planned
  obtain ⟨r, mapped, routine⟩ := exists_mapped_entry of registry
  refine ⟨r, ?_, routine⟩
  rw [routines, List.mem_filter, routine, ← own, home]
  exact ⟨mapped, beq_self_eq_true _⟩

/-! ### The declarations -/

theorem text_fieldDeclaration (name : String) :
    (fieldDeclaration name).text = name ++ " = Stopwatch()" := by
  have lines : Printer.stmtLines 0 (fieldDeclaration name) =
      [Printer.lineAt 0 (String.join [name ++ " = "] ++ "Stopwatch()")] := rfl
  rw [Stmt.text, Stmt.textLines, lines]
  split
  · rename_i rest same
    simp [Printer.lineAt] at same
  · simp [Printer.lineAt, String.join, String.append_assoc]
    rfl

/-- The lines that declare probes, one for each. -/
def declarations (indentation : String) (names : List String) : List String :=
  names.map fun name => indentation ++ name ++ " = Stopwatch()"

theorem map_fieldLines (setting : Setting) (indentation : String) :
    setting.fieldLines.map (indentation ++ ·) =
      declarations indentation setting.registry.fieldNames := by
  rw [Setting.fieldLines, List.map_map, declarations]
  refine List.map_congr_left fun name _ => ?_
  rw [Function.comp_apply, text_fieldDeclaration, String.append_assoc]

/-- A text whose lines declare probes below the import of the stopwatch, with an empty line behind. -/
def Declares (names : List String) (text : String) : Prop :=
  ∃ (newline indentation : String) (above between below : List String),
    text = String.join (above ++ ["from timetrack_cli.stopwatch import Stopwatch" ++ newline] ++
      between ++ (declarations indentation names ++ [""]).map (· ++ newline) ++ below)

/-- The edits of the home import the stopwatch and declare the probes. -/
structure HomeEdits (setting : Setting) (plan : UnitPlan) (edits : List LineEdit) : Prop where
  declares : Declares setting.registry.fieldNames (applyEdits plan.unit.source edits)
  edits : ∃ (rebuilt : List LineEdit) (line : Nat) (indentation : String),
    edits = .insertAt (lineBehind plan.unit.body isFutureImport)
        ["from timetrack_cli.stopwatch import Stopwatch"] :: rebuilt ++
      [.insertAt line (declarations indentation setting.registry.fieldNames ++ [""])] ∧
    runs rebuilt = runsOf ((setting.rebuilt plan).map spanOf)

theorem homeEdits_of_unitEdits {setting : Setting} (of : a.Of profile) {plan : UnitPlan}
    (planned : plan ∈ plansOf a registry) (home : plan.unit.name = setting.registry.home.module)
    {edits : List LineEdit} (success : (setting.unitEdits plan).2 = .ok edits) :
    HomeEdits setting plan edits := by
  have text := (framed_of_unitEdits of planned success).spliced
  obtain ⟨rebuilt, built, rfl⟩ := unitEdits_eq_ok success
  rw [if_pos home] at text ⊢
  obtain ⟨m, planned⟩ := planned_of_mem of planned
  obtain ⟨lie, nested⟩ := lie_of_parseModule (of.known.sound_of_mem planned.inProject).parsed
  rw [← planned.unit] at lie nested
  generalize (Text.sourceLines plan.unit.source).map Text.withoutBreak = lines at text built ⊢
  have ordered := importEdit_le_fieldEdit setting lie nested lines
  have start := (slot_importEdit lie nested).below
  obtain ⟨last, _, field, slot⟩ := slot_fieldEdit setting lie nested lines
  have ends : (setting.fieldEdit plan.unit lines).first ≤
      1 + ((closedLines plan.unit.source (newlineOf plan.unit.source.toList)).length : Int) := by
    have above := slot.above
    rw [field, length_closedLines]
    simp only [LineEdit.insertAt]
    omega
  obtain ⟨line, indentation, field, -⟩ := fieldEdit_cases setting plan.unit lines
  rw [map_fieldLines] at field
  have inserts (line : Nat) (made : List String) :
      (LineEdit.insertAt line made).isInsertion = true :=
    decide_eq_true (Int.sub_one_lt_iff.mpr (Int.le_refl _))
  refine ⟨?_, rebuilt, line, indentation, by rw [field]; rfl, runs_of_rebuildRoutines built⟩
  obtain ⟨above, between, below, split⟩ := exists_spliced_insertions
    (newlineOf plan.unit.source.toList) (e := Setting.importEdit plan.unit)
    (List.mem_append_right rebuilt List.mem_cons_self) (inserts _ _) (k := 1)
    (by simp only [Setting.importEdit, LineEdit.insertAt]; omega) ordered ends
  refine ⟨newlineOf plan.unit.source.toList, indentation, above, between, below, ?_⟩
  rw [text, List.cons_append, split, field]
  rfl

end Weaving

end ProbeWeave
