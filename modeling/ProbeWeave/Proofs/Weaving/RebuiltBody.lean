import ProbeWeave.Proofs.Weaving.Provenance
import ProbeWeave.Weaving.Unit

/-! # The new body of a routine

To the woven body the report is added where the program is entered, and in other modules than the
home the import of the home. The import comes first, behind a text at most.
-/

namespace ProbeWeave.Weaving

open Syntax Probe Project

/-! ### Statements put to a body -/

section Put

variable {t : Stmt} {body : List Stmt}

theorem within_putFirst {s : Stmt} (within : t.Within (putFirst body s)) :
    t.Within [s] ∨ t.Within body := by
  cases body with
  | nil => exact .inl within
  | cons first rest =>
    rw [putFirst] at within
    split at within
    · rcases within.of_append (b := [first]) with text | within
      · exact .inr (text.mono (by simp))
      · exact (within.of_append (b := [s])).imp id fun later => later.mono (by simp)
    · exact within.of_append (b := [s])

theorem within_putLast {report : List Stmt} (within : t.Within (putLast body report)) :
    t.Within body ∨ t.Within report := by
  unfold putLast at within
  split at within
  · rename_i last ends
    split at within
    · have part : [last] ⊆ body := List.cons_subset.mpr ⟨List.mem_of_getLast? ends, List.nil_subset _⟩
      rcases within.of_append with within | returned
      · exact within.of_append.imp (fun early => early.mono (List.dropLast_subset body)) id
      · exact .inl (returned.mono part)
    · exact within.of_append
  · exact .inr within

end Put

/-! ### What was changed -/

section Changes

variable {site : Site} {c : Change}

mutual

/-- The changes in a statement are those that the marks ask for. -/
theorem mem_changes_weave : ∀ m : Marked,
    c ∈ (site.weave m).2 ↔ ∃ mark ∈ m.marks, c ∈ Site.changesOf mark
  | .mk s mark blocks => by
    rw [Site.weave, Marked.marks]
    simp only [List.mem_append, List.mem_cons, exists_eq_or_imp, mem_changes_weaveBlocks blocks]
    exact or_comm

theorem mem_changes_weaveBlock : ∀ b : List Marked,
    c ∈ (site.weaveBlock b).2 ↔ ∃ mark ∈ Marked.marksOfBlock b, c ∈ Site.changesOf mark
  | [] => by simp [Site.weaveBlock, Marked.marksOfBlock]
  | m :: rest => by
    rw [Site.weaveBlock, Marked.marksOfBlock]
    simp only [List.mem_append, or_and_right, exists_or, mem_changes_weave m,
      mem_changes_weaveBlock rest]

theorem mem_changes_weaveBlocks : ∀ bs : List (List Marked),
    c ∈ (site.weaveBlocks bs).2 ↔ ∃ mark ∈ Marked.marksOfBlocks bs, c ∈ Site.changesOf mark
  | [] => by simp [Site.weaveBlocks, Marked.marksOfBlocks]
  | b :: rest => by
    rw [Site.weaveBlocks, Marked.marksOfBlocks]
    simp only [List.mem_append, or_and_right, exists_or, mem_changes_weaveBlock b,
      mem_changes_weaveBlocks rest]

end

theorem changesOf_ne_nil {mark : Mark} (active : mark.isActive = true) : Site.changesOf mark ≠ [] := by
  intro none
  simp only [Site.changesOf, List.append_eq_nil_iff, List.map_eq_nil_iff,
    Option.toList_eq_nil_iff, Option.map_eq_none_iff] at none
  simp [Mark.isActive, none] at active

/-- A routine with anything to time is changed. -/
theorem changes_of_isActive {r : RoutinePlan} (active : r.isActive = true) :
    (site.weaveBlock r.body).2.isEmpty = false := by
  obtain ⟨mark, marked, active⟩ := List.any_eq_true.mp active
  obtain ⟨c, changed⟩ := List.exists_mem_of_ne_nil _ (changesOf_ne_nil active)
  exact List.isEmpty_eq_false_iff_exists_mem.mpr
    ⟨c, (mem_changes_weaveBlock r.body).mpr ⟨mark, marked, changed⟩⟩

end Changes

namespace Setting

variable {setting : Setting} {unit : SourceUnit} {r : RoutinePlan}

/-- Whether lines of a report read declared probes, by the names that lead to them in a module. -/
def Reads (setting : Setting) (unit : SourceUnit) (lines : List Report.Line) : Prop :=
  ∀ line ∈ lines, ∃ name ∈ setting.registry.fieldNames, line.probe = (setting.site unit).probeRef name

/-- How a statement comes into the new body of a routine. -/
inductive Origin (setting : Setting) (unit : SourceUnit) (r : RoutinePlan) : Stmt → Prop
  | woven {t : Stmt} (stems : Stems (setting.site unit) setting.registry.fieldNames
      (Marked.marksOfBlock r.body) r.definition.body t) : Origin setting unit r t
  | imported (elsewhere : (setting.site unit).needsHomeImport = true) :
      Origin setting unit r (setting.site unit).homeImport
  | reported {lines : List Report.Line} (read : setting.Reads unit lines) {t : Stmt}
      (within : t.Within (reportBlock r.definition.routine.qualifiedName lines setting.reportVariable
        setting.reportFile)) : Origin setting unit r t

/-- Every statement of the new body comes from the old one, serves the probes of its marks, imports
their home or gives the report. -/
theorem origin_rebuildBody (declared : Declared setting.registry.fieldNames (Marked.marksOfBlock r.body))
    {timing : Timing} {m : Mapping} (marked : r.body = (timing.markBlock r.definition.body m).1)
    (read : setting.reports r.definition.routine = true → setting.Reads unit
      (Report.build setting.analysis.exclusions setting.registry setting.analysis.graph))
    {t : Stmt} (within : t.Within (setting.rebuildBody unit r).1) : setting.Origin unit r t := by
  have woven (within : t.Within ((setting.site unit).weaveBlock r.body).1) :
      setting.Origin unit r t := by
    rw [marked] at within declared
    have stems := stems_weaveBlock declared (List.Subset.refl _) within
    exact .woven (marked ▸ stems)
  have behind (within : t.Within (if setting.reports r.definition.routine then
      putLast ((setting.site unit).weaveBlock r.body).1
        (setting.reportStatements r.definition.routine)
      else ((setting.site unit).weaveBlock r.body).1)) : setting.Origin unit r t := by
    split at within
    · rename_i entered
      exact (within_putLast within).elim woven fun report => .reported (read entered) report
    · exact woven within
  simp only [rebuildBody] at within
  split at within
  · rename_i imports
    rcases within_putFirst within with first | within
    · obtain rfl := List.mem_singleton.mp (first.mem_of_flat (by simp [Site.homeImport, Stmt.blocks]))
      exact .imported (Bool.and_eq_true_iff.mp imports).1
    · exact behind within
  · exact behind within

/-- In other modules than the home, a routine with anything to time imports the home first, behind a
text at most. -/
theorem rebuildBody_of_isActive (elsewhere : unit.name ≠ setting.registry.home.module)
    (active : r.isActive = true) :
    ∃ before rest, (setting.rebuildBody unit r).1 =
        before ++ (setting.site unit).homeImport :: rest ∧
      (before = [] ∨ ∃ text, text.isText = true ∧ before = [text]) := by
  have needed : (setting.site unit).needsHomeImport = true := by
    simpa [Site.needsHomeImport, site] using elsewhere
  simp only [rebuildBody, needed, changes_of_isActive active, Bool.not_false, Bool.and_self, if_true]
  generalize (if setting.reports r.definition.routine then
    putLast ((setting.site unit).weaveBlock r.body).1 (setting.reportStatements r.definition.routine)
    else ((setting.site unit).weaveBlock r.body).1) = body
  cases body with
  | nil => exact ⟨[], [], rfl, .inl rfl⟩
  | cons first rest =>
    rw [putFirst]
    split
    · rename_i text
      exact ⟨[first], rest, rfl, .inr ⟨first, text, rfl⟩⟩
    · exact ⟨[], first :: rest, rfl, .inl rfl⟩

end Setting

end ProbeWeave.Weaving
