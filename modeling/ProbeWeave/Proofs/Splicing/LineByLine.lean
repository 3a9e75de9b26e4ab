import Mathlib
import ProbeWeave.Proofs.Splicing.Spliced

/-! # Edits line by line

A text with edits that fit together can be written down without applying them in an order: at each
position, from the first line to the one behind the last, stand the insertions there, and then what
replaces the run that begins there, or nothing inside of a replaced run, or the line itself. So it
makes no difference in which order the edits come, as long as those that insert at one position keep
theirs.
-/

namespace ProbeWeave.Weaving

/-! ### The lines of a text -/

/-- New lines end with two characters exactly if some line of the text does. -/
theorem newlineOf_eq (source : List Char) :
    newlineOf source = if ['\r', '\n'] <:+: source then "\r\n" else "\n" := by
  induction source with
  | nil => rfl
  | cons c rest ih =>
    have front : ['\r', '\n'] <+: c :: rest ↔ c = '\r' ∧ rest.head? = some '\n' := by
      cases rest <;> simp [List.cons_prefix_cons, eq_comm]
    rw [newlineOf, ih]
    by_cases here : c = '\r' ∧ rest.head? = some '\n'
    · rw [if_pos (by simpa using here), if_pos (front.mpr here).isInfix]
    · rw [if_neg (by simpa using here)]
      simp only [List.infix_cons_iff, front, here, false_or]

/-- All lines but the last end with a break. -/
theorem break_of_mem_dropLast (isBreak : Char → Bool) (cs : List Char) :
    ∀ line ∈ (Text.cutLines isBreak cs).dropLast, line.getLast?.any isBreak = true := by
  induction cs with
  | nil => exact List.forall_mem_nil _
  | cons c rest ih =>
    rw [Text.cutLines]
    split
    · rename_i ends
      cases cut : Text.cutLines isBreak rest with
      | nil => exact List.forall_mem_nil _
      | cons first others =>
        rw [List.dropLast_cons_cons, ← cut]
        exact List.forall_mem_cons.mpr ⟨(Bool.and_eq_true_iff.mp ends).1, ih⟩
    · split
      · exact List.forall_mem_nil _
      · rename_i first others cut
        rw [cut] at ih
        cases others with
        | nil => exact List.forall_mem_nil _
        | cons second others =>
          rw [List.dropLast_cons_cons] at ih ⊢
          obtain ⟨here, later⟩ := List.forall_mem_cons.mp ih
          refine List.forall_mem_cons.mpr ⟨?_, later⟩
          rw [List.getLast?_cons]
          cases ends : first.getLast? with
          | none => simp [ends] at here
          | some d => simpa [ends] using here

/-- A line with the break that it has, or with a new one if it has none. -/
def withBreak (newline line : String) : String :=
  if endsWithBreak line then line else line ++ newline

/-- Every line has a break, since only the last one may have been without. -/
theorem closedLines_eq_map (source newline : String) :
    closedLines source newline = (Text.sourceLines source).map (withBreak newline) := by
  have ended : ∀ line ∈ (Text.sourceLines source).dropLast, withBreak newline line = line := by
    intro line member
    rw [Text.sourceLines, ← List.map_dropLast] at member
    obtain ⟨cs, inLines, rfl⟩ := List.mem_map.mp member
    have ends := break_of_mem_dropLast Text.isSourceBreak _ cs inLines
    rw [withBreak, endsWithBreak, String.toList_ofList, if_pos ends]
  rw [closedLines]
  split
  · rename_i last found
    obtain ⟨lines, same⟩ := List.getLast?_eq_some_iff.mp found
    rw [same, List.dropLast_concat] at ended
    rw [same, List.map_append, List.map_congr_left ended]
    split <;> simp [withBreak, *]
  · rename_i none
    simp [List.getLast?_eq_none_iff.mp none]

/-! ### Position by position -/

/-- The lines of the insertions at a position, in the order of the edits. -/
def insertedAt (newline : String) (edits : List LineEdit) (k : Int) : List String :=
  (edits.filter (LineEdit.startsAt k true)).flatMap (LineEdit.written newline)

/-- What stands in the place of a line: the lines of the replacement that begins there, or nothing
inside of a replaced run, or the line itself. -/
def keptAt (newline : String) (edits : List LineEdit) (line? : Option String) (k : Int) : List String :=
  match edits.find? (LineEdit.startsAt k false) with
  | some e => e.written newline
  | none => if edits.any (·.covers k) then [] else line?.toList

namespace Fit

variable {newline : String} {edits others : List LineEdit} {n : Nat}

/-- At most one replaced run begins at a line. -/
theorem filter_startsAt (fit : Fit n edits) (k : Int) :
    edits.filter (LineEdit.startsAt k false) = (edits.find? (LineEdit.startsAt k false)).toList := by
  have alone : (edits.filter (LineEdit.startsAt k false)).Pairwise fun _ _ => False := by
    refine List.pairwise_filter.mpr ((List.pairwise_filter.mp fit.disjoint).imp ?_)
    intro e f apart here there
    simp only [LineEdit.startsAt, Bool.and_eq_true, beq_iff_eq] at here there
    replace apart := apart (by simp [here.2]) (by simp [there.2])
    simp only [LineEdit.isInsertion, decide_eq_false_iff_not] at here there
    omega
  rw [← List.head?_filter]
  generalize edits.filter (LineEdit.startsAt k false) = found at alone ⊢
  cases found with
  | nil => rfl
  | cons e rest =>
    cases rest with
    | nil => rfl
    | cons f _ => exact (List.rel_of_pairwise_cons alone List.mem_cons_self).elim

theorem madeAt_append (fit : Fit n edits) (newline : String) (line? : Option String) (k : Int) :
    madeAt newline edits k ++ (if edits.any (·.covers k) then [] else line?.toList) =
      insertedAt newline edits k ++ keptAt newline edits line? k := by
  rw [madeAt, fit.filter_startsAt, List.flatMap_append, List.append_assoc, insertedAt, keptAt]
  congr 1
  cases found : edits.find? (LineEdit.startsAt k false) with
  | none => rfl
  | some e =>
    -- a run takes away the line that it begins at
    have starts := List.find?_some found
    simp only [LineEdit.startsAt, Bool.and_eq_true, beq_iff_eq, LineEdit.isInsertion,
      decide_eq_false_iff_not] at starts
    have covered : edits.any (·.covers k) = true := by
      refine List.any_eq_true.mpr ⟨e, List.mem_of_find?_eq_some found, ?_⟩
      simp only [LineEdit.covers, Bool.and_eq_true, decide_eq_true_eq]
      omega
    simp [covered]

/-- There is one position more than there are lines. -/
theorem spliced_eq (fit : Fit n edits) (k : Nat) (lines : List String) :
    spliced newline edits k lines = (List.range' k (lines.length + 1)).flatMap fun (j : Nat) =>
      insertedAt newline edits j ++ keptAt newline edits lines[j - k]? j := by
  induction lines generalizing k with
  | nil => simpa [spliced] using fit.madeAt_append newline none k
  | cons line rest ih =>
    have here := fit.madeAt_append newline (some line) k
    have there := ih (k + 1)
    simp only [Option.toList_some] at here
    push_cast at there
    rw [spliced, here, there, List.length_cons, List.range'_succ (s := k), List.flatMap_cons]
    congr 1
    · simp
    · refine List.flatMap_congr fun j member => ?_
      have beyond := (List.mem_range'_1.mp member).1
      have next : j - k = j - (k + 1) + 1 := by omega
      rw [next, List.getElem?_cons_succ]

/-! ### Edits in another order -/

theorem perm (fit : Fit n edits) (same : others.Perm edits) : Fit n others where
  inside e member := fit.inside e (same.subset member)
  disjoint :=
    ((same.filter (!·.isInsertion)).pairwise_iff fun {_ _} apart => apart.symm).mpr fit.disjoint
  outside i member insertion e member' :=
    fit.outside i (same.subset member) insertion e (same.subset member')

/-- The order of the edits has no part in what stands in the place of a line. -/
theorem keptAt_perm (fit : Fit n edits) (same : others.Perm edits) (line? : Option String) (k : Int) :
    keptAt newline others line? k = keptAt newline edits line? k := by
  have alike := same.filter (LineEdit.startsAt k false)
  rw [(fit.perm same).filter_startsAt, fit.filter_startsAt] at alike
  have found : others.find? (LineEdit.startsAt k false) = edits.find? (LineEdit.startsAt k false) := by
    cases found : edits.find? (LineEdit.startsAt k false) with
    | none => simpa [found] using alike
    | some e => simpa [found] using alike
  rw [keptAt, keptAt, found, same.any_eq]

end Fit

/-- Edits that fit make of a text, at each position from the first line to the one behind the last,
the insertions there in their order, and then the replacement that begins there, or nothing inside of
a replaced run, or the line with its break. New lines, and a last line without a break, get the break
of two characters exactly if the text has one. Another order of the edits makes no difference if it
keeps the order of the insertions at each position. -/
theorem applyEdits_line_by_line (source : String) (edits : List LineEdit)
    (fit : Fit (Text.sourceLines source).length edits) :
    let newline := if ['\r', '\n'] <:+: source.toList then "\r\n" else "\n"
    let lines := (Text.sourceLines source).map (withBreak newline)
    applyEdits source edits =
        String.join ((List.range' 1 (lines.length + 1)).flatMap fun (k : Nat) =>
          insertedAt newline edits k ++ keptAt newline edits lines[k - 1]? k) ∧
      ∀ others : List LineEdit, others.Perm edits →
        (∀ k, others.filter (LineEdit.startsAt k true) = edits.filter (LineEdit.startsAt k true)) →
        applyEdits source others = applyEdits source edits := by
  intro newline lines
  have text {edits : List LineEdit} (fit : Fit (Text.sourceLines source).length edits) :
      applyEdits source edits =
        String.join ((List.range' 1 (lines.length + 1)).flatMap fun (k : Nat) =>
          insertedAt newline edits k ++ keptAt newline edits lines[k - 1]? k) := by
    rw [applyEdits_eq_spliced (by rwa [closedLines_eq_map, List.length_map]), newlineOf_eq,
      closedLines_eq_map]
    exact congrArg String.join (fit.spliced_eq 1 lines)
  refine ⟨text fit, fun others same inserted => ?_⟩
  rw [text (fit.perm same), text fit]
  simp only [insertedAt, inserted, fit.keptAt_perm same]

/-! A text with breaks of all kinds, whose last line has none. -/

namespace MixedBreaks

def source : String := "one\r\ntwo\nthree\rfour"

def replacement : LineEdit := ⟨2, 2, ["TWO"]⟩

def edits : List LineEdit := [replacement, ⟨2, 1, ["a"]⟩, ⟨5, 4, ["end"]⟩, ⟨2, 0, ["b"]⟩]

/-- The insertions in front of the second line keep their order. -/
def reordered : List LineEdit := [⟨5, 4, ["end"]⟩, ⟨2, 1, ["a"]⟩, ⟨2, 0, ["b"]⟩, replacement]

theorem length_source : (Text.sourceLines source).length = 4 := by decide

theorem fit_edits : Fit (Text.sourceLines source).length edits := by
  rw [length_source]
  exact ⟨by decide, by decide, by decide⟩

theorem applyEdits_line_by_line_mixedBreaks :
    Fit (Text.sourceLines source).length edits ∧
      applyEdits source edits = "one\r\na\r\nb\r\nTWO\r\nthree\rfour\r\nend\r\n" ∧
      reordered.Perm edits ∧ applyEdits source reordered = applyEdits source edits := by
  have same : reordered.Perm edits := by decide
  have wide : ['\r', '\n'] <:+: source.toList := ⟨['o', 'n', 'e'], _, rfl⟩
  obtain ⟨text, perm⟩ := applyEdits_line_by_line source edits fit_edits
  rw [if_pos wide] at text
  refine ⟨fit_edits, text.trans (by decide +kernel), same, perm reordered same fun k => ?_⟩
  simp only [reordered, edits, replacement, LineEdit.startsAt, LineEdit.isInsertion, List.filter_cons]
  by_cases second : k = 2
  · subst second
    rfl
  · simp [Ne.symm second]

end MixedBreaks

end ProbeWeave.Weaving
