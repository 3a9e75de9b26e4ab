import Mathlib.Data.List.Sort
import ProbeWeave.Weaving.Splice

/-! # What splicing gives

A text with edits can be read off line by line: in front of each line stands what was inserted
there and what takes the place of lines from there on, and the line itself stays unless it was
replaced. Applying sorted edits from the top down gives the same if the edits fit together: the runs
they replace are disjoint, and nothing is inserted inside of a run.
-/

namespace ProbeWeave.Weaving

namespace LineEdit

/-- Whether an edit takes a line away. -/
def covers (e : LineEdit) (k : Int) : Bool :=
  decide (e.first ≤ k) && decide (k ≤ e.last)

/-- Whether an edit puts its lines in front of a line and is an insertion or not. -/
def startsAt (k : Int) (insertion : Bool) (e : LineEdit) : Bool :=
  e.first == k && e.isInsertion == insertion

/-- The lines of an edit as they are written. -/
def written (newline : String) (e : LineEdit) : List String :=
  e.lines.map (· ++ newline)

end LineEdit

/-- What edits put in front of a line, insertions first. -/
def madeAt (newline : String) (edits : List LineEdit) (k : Int) : List String :=
  (edits.filter (LineEdit.startsAt k true) ++ edits.filter (LineEdit.startsAt k false)).flatMap
    (LineEdit.written newline)

/-- The lines of a text from line `k` on with what edits put in front of each of them and without
what they take away. -/
def spliced (newline : String) (edits : List LineEdit) (k : Int) : List String → List String
  | [] => madeAt newline edits k
  | line :: rest =>
    madeAt newline edits k ++ (if edits.any (·.covers k) then [] else [line]) ++
      spliced newline edits (k + 1) rest

/-- Edits of a text of `n` lines whose runs are disjoint and that insert nothing inside of a run. -/
structure Fit (n : Nat) (edits : List LineEdit) : Prop where
  inside : ∀ e ∈ edits, 1 ≤ e.first ∧
    (if e.isInsertion then e.first ≤ n + 1 else e.last ≤ n)
  disjoint : (edits.filter (!·.isInsertion)).Pairwise fun e f =>
    e.last < f.first ∨ f.last < e.first
  outside : ∀ i ∈ edits, i.isInsertion → ∀ e ∈ edits, ¬e.isInsertion →
    ¬(e.first < i.first ∧ i.first ≤ e.last)

/-! ### Edits from the top down -/

/-- Whether an edit can be applied behind another one. -/
def Follows (e f : LineEdit) : Prop :=
  e.first ≤ f.first ∧ (¬e.isInsertion → e.last < f.first)

section Spliced

variable {newline : String} {e : LineEdit} {edits : List LineEdit} {k : Int}

theorem madeAt_of_later (later : ∀ f ∈ edits, k < f.first) : madeAt newline edits k = [] := by
  have none (insertion : Bool) : edits.filter (LineEdit.startsAt k insertion) = [] := by
    refine List.filter_eq_nil_iff.mpr fun f member => ?_
    have beyond := later f member
    simp only [LineEdit.startsAt, Bool.and_eq_true, beq_iff_eq, not_and]
    omega
  simp [madeAt, none]

theorem not_covers_of_later (later : ∀ f ∈ edits, k < f.first) :
    edits.any (·.covers k) = false := by
  refine List.any_eq_false.mpr fun f member => ?_
  have beyond := later f member
  simp only [LineEdit.covers, Bool.and_eq_true, decide_eq_true_eq, not_and]
  omega

theorem spliced_nil (lines : List String) : spliced newline [] k lines = lines := by
  induction lines generalizing k with
  | nil => rfl
  | cons line rest ih => simpa [spliced, madeAt] using ih

/-- Lines in front of all edits stay. -/
theorem spliced_of_later (m : Nat) (lines : List String) (enough : m ≤ lines.length)
    (later : ∀ f ∈ edits, k + m ≤ f.first) :
    spliced newline edits k lines =
      lines.take m ++ spliced newline edits (k + m) (lines.drop m) := by
  induction m generalizing k lines with
  | zero => simp
  | succ m ih =>
    cases lines with
    | nil => simp at enough
    | cons line rest =>
      have next : ∀ f ∈ edits, k < f.first := fun f member => by
        have beyond := later f member
        omega
      have others := ih (k := k + 1) rest (by simpa using enough) fun f member => by
        have beyond := later f member
        omega
      have same : k + 1 + (m : Int) = k + ((m + 1 : Nat) : Int) := by omega
      rw [spliced, madeAt_of_later next, not_covers_of_later next, others, same]
      simp

/-- An edit in front of a line has no part in what follows from there. -/
theorem spliced_cons_of_earlier (first : e.first < k) (last : e.last < k) (lines : List String) :
    spliced newline (e :: edits) k lines = spliced newline edits k lines := by
  have apart (k : Int) (first : e.first < k) (insertion : Bool) :
      e.startsAt k insertion = false := by
    have other : (e.first == k) = false := by
      simp only [beq_eq_false_iff_ne, ne_eq]
      omega
    rw [LineEdit.startsAt, other, Bool.false_and]
  have made (k : Int) (first : e.first < k) :
      madeAt newline (e :: edits) k = madeAt newline edits k := by
    simp only [madeAt, List.filter_cons, apart k first, Bool.false_eq_true, if_false]
  induction lines generalizing k with
  | nil => exact made k first
  | cons line rest ih =>
    have covers : e.covers k = false := by
      simp only [LineEdit.covers, Bool.and_eq_false_iff, decide_eq_false_iff_not]
      omega
    rw [spliced, spliced, made k first, List.any_cons, covers, Bool.false_or,
      ih (by omega) (by omega)]

/-- The first insertion at a line comes before all else there. -/
theorem spliced_cons_insertion (insertion : e.isInsertion = true) (lines : List String) :
    spliced newline (e :: edits) e.first lines =
      e.written newline ++ spliced newline edits e.first lines := by
  have upward : e.last < e.first := by simpa [LineEdit.isInsertion] using insertion
  have made : madeAt newline (e :: edits) e.first =
      e.written newline ++ madeAt newline edits e.first := by
    simp [madeAt, LineEdit.startsAt, insertion]
  cases lines with
  | nil => exact made
  | cons line rest =>
    have covers : e.covers e.first = false := by
      simp only [LineEdit.covers, Bool.and_eq_false_iff, decide_eq_false_iff_not]
      omega
    rw [spliced, spliced, made, List.any_cons, covers, Bool.false_or,
      spliced_cons_of_earlier (by omega) (by omega)]
    simp only [List.append_assoc]

/-- The lines that a replacement takes away. -/
theorem spliced_cons_covered (m : Nat) (lines : List String) (enough : m ≤ lines.length)
    (first : e.first < k) (last : e.last + 1 = k + m)
    (later : ∀ f ∈ edits, e.last < f.first) :
    spliced newline (e :: edits) k lines =
      spliced newline edits (e.last + 1) (lines.drop m) := by
  induction m generalizing k lines with
  | zero =>
    obtain rfl : k = e.last + 1 := by omega
    exact spliced_cons_of_earlier first (by omega) lines
  | succ m ih =>
    cases lines with
    | nil => simp at enough
    | cons line rest =>
      have made : madeAt newline (e :: edits) k = [] := by
        have apart (insertion : Bool) :
            (e :: edits).filter (LineEdit.startsAt k insertion) = [] := by
          refine List.filter_eq_nil_iff.mpr (List.forall_mem_cons.mpr ⟨?_, fun f member => ?_⟩)
          · simp only [LineEdit.startsAt, Bool.and_eq_true, beq_iff_eq, not_and]
            omega
          · have beyond := later f member
            simp only [LineEdit.startsAt, Bool.and_eq_true, beq_iff_eq, not_and]
            omega
        simp [madeAt, apart]
      have covers : e.covers k = true := by
        simp only [LineEdit.covers, Bool.and_eq_true, decide_eq_true_eq]
        omega
      rw [spliced, made, List.any_cons, covers, Bool.true_or, if_pos rfl,
        ih rest (by simpa using enough) (by omega) (by omega)]
      rfl

/-- A replacement behind all insertions at its line. -/
theorem spliced_cons_replacement (replaces : e.isInsertion = false) (m : Nat) (lines : List String)
    (enough : m ≤ lines.length) (last : e.last + 1 = e.first + m)
    (later : ∀ f ∈ edits, e.last < f.first) :
    spliced newline (e :: edits) e.first lines =
      e.written newline ++ spliced newline edits (e.last + 1) (lines.drop m) := by
  have upright : e.first ≤ e.last := by simpa [LineEdit.isInsertion] using replaces
  have apart (insertion : Bool) : edits.filter (LineEdit.startsAt e.first insertion) = [] := by
    refine List.filter_eq_nil_iff.mpr fun f member => ?_
    have beyond := later f member
    simp only [LineEdit.startsAt, Bool.and_eq_true, beq_iff_eq, not_and]
    omega
  have made : madeAt newline (e :: edits) e.first = e.written newline := by
    simp [madeAt, LineEdit.startsAt, replaces, apart]
  have covers : e.covers e.first = true := by
    simp [LineEdit.covers, upright]
  obtain ⟨m, rfl⟩ : ∃ n, m = n + 1 := ⟨m - 1, by omega⟩
  cases lines with
  | nil => simp at enough
  | cons line rest =>
    rw [spliced, made, List.any_cons, covers, Bool.true_or, if_pos rfl,
      spliced_cons_covered m rest (by simpa using enough) (by omega) (by omega) later]
    simp

/-- What is made of the lines in front of others does not depend on these. -/
theorem exists_spliced_append (newline : String) (edits : List LineEdit) (k : Int)
    (lines : List String) :
    ∃ above, ∀ rest, spliced newline edits k (lines ++ rest) =
      above ++ spliced newline edits (k + lines.length) rest := by
  induction lines generalizing k with
  | nil => exact ⟨[], fun rest => by simp⟩
  | cons line lines ih =>
    obtain ⟨above, split⟩ := ih (k + 1)
    refine ⟨madeAt newline edits k ++ (if edits.any (·.covers k) then [] else [line]) ++ above,
      fun rest => ?_⟩
    have next : k + 1 + (lines.length : Int) = k + ((lines.length + 1 : Nat) : Int) := by omega
    rw [List.cons_append, spliced, split rest, List.length_cons, next]
    simp only [List.append_assoc]

/-- The lines from a line on are made of what comes before it and what is made from there on. -/
theorem exists_spliced_from (newline : String) (edits : List LineEdit) {k l : Int}
    {lines : List String} (below : k ≤ l) (above : l ≤ k + lines.length) :
    ∃ before, spliced newline edits k lines =
      before ++ spliced newline edits l (lines.drop (l - k).toNat) := by
  obtain ⟨before, split⟩ := exists_spliced_append newline edits k (lines.take (l - k).toNat)
  refine ⟨before, ?_⟩
  have there := split (lines.drop (l - k).toNat)
  have line : k + ((l - k).toNat : Int) = l := by omega
  rwa [List.take_append_drop, List.length_take_of_le (by omega), line] at there

theorem exists_spliced_madeAt (newline : String) (edits : List LineEdit) (k : Int)
    (lines : List String) : ∃ after, spliced newline edits k lines = madeAt newline edits k ++ after := by
  cases lines with
  | nil => exact ⟨[], (List.append_nil _).symm⟩
  | cons line rest => exact ⟨_, List.append_assoc ..⟩

/-- What an edit brings stands together in front of its first line. -/
theorem exists_madeAt (newline : String) (member : e ∈ edits) :
    ∃ before after, madeAt newline edits e.first = before ++ e.written newline ++ after := by
  have starts : e ∈ edits.filter (LineEdit.startsAt e.first true) ++
      edits.filter (LineEdit.startsAt e.first false) := by
    cases kind : e.isInsertion <;> simp [LineEdit.startsAt, member, kind]
  obtain ⟨early, late, made⟩ := List.append_of_mem starts
  refine ⟨early.flatMap (LineEdit.written newline), late.flatMap (LineEdit.written newline), ?_⟩
  rw [madeAt, made]
  simp only [List.flatMap_append, List.flatMap_cons, List.append_assoc]

/-- The lines of an edit stand together in the new text. -/
theorem exists_spliced_written (newline : String) (member : e ∈ edits) {lines : List String}
    (below : k ≤ e.first) (above : e.first ≤ k + lines.length) :
    ∃ before after, spliced newline edits k lines = before ++ e.written newline ++ after := by
  obtain ⟨before, there⟩ := exists_spliced_from newline edits below above
  obtain ⟨later, here⟩ := exists_spliced_madeAt newline edits e.first
    (lines.drop (e.first - k).toNat)
  obtain ⟨early, late, made⟩ := exists_madeAt newline member
  refine ⟨before ++ early, late ++ later, ?_⟩
  rw [there, here, made]
  simp only [List.append_assoc]

/-- The lines of the first edit, if it inserts, stand above those of later edits that are not in
front of it. -/
theorem exists_spliced_insertions (newline : String) {f : LineEdit} (member : f ∈ edits)
    (first : e.isInsertion = true) {lines : List String} (below : k ≤ e.first)
    (ordered : e.first ≤ f.first) (above : f.first ≤ k + lines.length) :
    ∃ before between after, spliced newline (e :: edits) k lines =
      before ++ e.written newline ++ between ++ f.written newline ++ after := by
  obtain ⟨before, there⟩ := exists_spliced_from newline (e :: edits) below
    (Int.le_trans ordered above)
  have enough : f.first ≤ e.first + (lines.drop (e.first - k).toNat).length := by
    rw [List.length_drop]
    omega
  obtain ⟨between, after, later⟩ := exists_spliced_written newline member ordered enough
  refine ⟨before, between, after, ?_⟩
  rw [there, spliced_cons_insertion first, later]
  simp only [List.append_assoc]

end Spliced

/-- Edits that follow each other are applied line by line. -/
theorem applySorted_eq {lines : List String} {newline : String} {edits : List LineEdit}
    {position : Int} (started : 1 ≤ position) (ended : position ≤ lines.length + 1)
    (follow : edits.Pairwise Follows) (onward : ∀ e ∈ edits, position ≤ e.first)
    (inside : ∀ e ∈ edits, if e.isInsertion then e.first ≤ lines.length + 1 else e.last ≤ lines.length) :
    applySorted lines newline position edits =
      spliced newline edits position (lines.drop (position - 1).toNat) := by
  induction edits generalizing position with
  | nil =>
    rw [spliced_nil, applySorted, after, resolveIndex, if_neg (by omega)]
  | cons e rest ih =>
    obtain ⟨here, others⟩ := List.pairwise_cons.mp follow
    obtain ⟨below, -⟩ := List.forall_mem_cons.mp onward
    obtain ⟨fits, fit⟩ := List.forall_mem_cons.mp inside
    obtain ⟨m, first⟩ : ∃ m : Nat, e.first = position + m := ⟨(e.first - position).toNat, by omega⟩
    have bounded : e.first ≤ lines.length + 1 := by
      cases insertion : e.isInsertion
      · have upright : e.first ≤ e.last := by simpa [LineEdit.isInsertion] using insertion
        simp only [insertion, Bool.false_eq_true, if_false] at fits
        omega
      · simpa [insertion] using fits
    -- the lines in front of the edit
    have kept : between lines (position - 1) (e.first - 1) =
        (lines.drop (position - 1).toNat).take m := by
      have count : (e.first - 1).toNat - (position - 1).toNat = m := by omega
      rw [between, resolveIndex, resolveIndex, if_neg (by omega), if_neg (by omega), count]
    have later : ∀ f ∈ e :: rest, position + m ≤ f.first := by
      rw [← first]
      exact List.forall_mem_cons.mpr ⟨le_refl _, fun f member => (here f member).1⟩
    have front : spliced newline (e :: rest) position (lines.drop (position - 1).toNat) = _ :=
      spliced_of_later m _ (by rw [List.length_drop]; omega) later
    have dropped : (lines.drop (position - 1).toNat).drop m = lines.drop (e.first - 1).toNat := by
      rw [List.drop_drop]
      congr 1
      omega
    rw [front, dropped, ← first, applySorted, kept, List.append_assoc]
    congr 1
    cases insertion : e.isInsertion
    · have upright : e.first ≤ e.last := by simpa [LineEdit.isInsertion] using insertion
      have beyond : ∀ f ∈ rest, e.last < f.first := fun f member =>
        (here f member).2 (by simp [insertion])
      simp only [insertion, Bool.false_eq_true, if_false] at fits ⊢
      rw [ih (by omega) (by omega) others (fun f member => by have := beyond f member; omega) fit,
        spliced_cons_replacement insertion (e.last + 1 - e.first).toNat _
          (by rw [List.length_drop]; omega) (by omega) beyond, List.drop_drop, LineEdit.written]
      congr 3
      omega
    · simp only [if_true]
      rw [max_eq_right below, ih (by omega) bounded others (fun f member => (here f member).1) fit,
        spliced_cons_insertion insertion, LineEdit.written]

/-! ### Sorting -/

namespace LineEdit

theorem precedes_trans (a b c : LineEdit) (first : a.precedes b = true)
    (second : b.precedes c = true) : a.precedes c = true := by
  simp only [precedes, Bool.or_eq_true, Bool.and_eq_true, decide_eq_true_eq, beq_iff_eq,
    Bool.not_eq_true'] at *
  cases insertion : b.isInsertion <;> simp only [insertion] at first second <;> grind

theorem precedes_total (a b : LineEdit) : (a.precedes b || b.precedes a) = true := by
  simp only [precedes, Bool.or_eq_true, Bool.and_eq_true, decide_eq_true_eq, beq_iff_eq,
    Bool.not_eq_true']
  cases a.isInsertion <;> cases b.isInsertion <;> grind

end LineEdit

variable {newline : String} {edits : List LineEdit}

/-- Sorting keeps the order of the edits of one kind at one line. -/
theorem filter_mergeSort (k : Int) (insertion : Bool) :
    (edits.mergeSort LineEdit.precedes).filter (LineEdit.startsAt k insertion) =
      edits.filter (LineEdit.startsAt k insertion) := by
  have alike : (edits.filter (LineEdit.startsAt k insertion)).Pairwise
      fun a b => a.precedes b = true := by
    refine List.pairwise_filter.mpr (List.pairwise_of_forall_mem_list fun a _ b _ ha hb => ?_)
    simp only [LineEdit.startsAt, Bool.and_eq_true, beq_iff_eq] at ha hb
    cases insertion <;> simp [LineEdit.precedes, ha, hb]
  have inside := List.sublist_mergeSort LineEdit.precedes_trans LineEdit.precedes_total alike
    List.filter_sublist
  have again := inside.filter (LineEdit.startsAt k insertion)
  simp only [List.filter_filter, Bool.and_self] at again
  have same := ((List.mergeSort_perm edits LineEdit.precedes).filter
    (LineEdit.startsAt k insertion)).length_eq
  exact (again.eq_of_length (by simpa using same.symm)).symm

theorem spliced_mergeSort (k : Int) (lines : List String) :
    spliced newline (edits.mergeSort LineEdit.precedes) k lines = spliced newline edits k lines := by
  have made (k : Int) :
      madeAt newline (edits.mergeSort LineEdit.precedes) k = madeAt newline edits k := by
    rw [madeAt, madeAt, filter_mergeSort, filter_mergeSort]
  have covered (k : Int) :
      (edits.mergeSort LineEdit.precedes).any (·.covers k) = edits.any (·.covers k) :=
    (List.mergeSort_perm edits LineEdit.precedes).any_eq
  induction lines generalizing k with
  | nil => exact made k
  | cons line rest ih => rw [spliced, spliced, made, covered, ih]

/-- Edits that fit follow each other once they are sorted. -/
theorem Fit.follow {n : Nat} (fit : Fit n edits) :
    (edits.mergeSort LineEdit.precedes).Pairwise Follows := by
  have same := List.mergeSort_perm edits LineEdit.precedes
  have sorted := List.pairwise_mergeSort LineEdit.precedes_trans LineEdit.precedes_total edits
  have apart := ((same.filter (!·.isInsertion)).pairwise_iff fun {e f} apart => apart.symm).mpr
    fit.disjoint
  refine (sorted.and (List.pairwise_filter.mp apart)).imp_of_mem fun {e f} inE inF known => ?_
  obtain ⟨precedes, apart⟩ := known
  simp only [LineEdit.precedes, Bool.or_eq_true, Bool.and_eq_true, decide_eq_true_eq, beq_iff_eq,
    Bool.not_eq_true'] at precedes
  refine ⟨by omega, fun replaces => ?_⟩
  have strict : f.isInsertion = true → e.first < f.first := by
    intro insertion
    simp_all
  cases insertion : f.isInsertion
  · have upright : f.first ≤ f.last := by simpa [LineEdit.isInsertion] using insertion
    have apart := apart (by simpa using replaces) (by simpa using insertion)
    omega
  · have outside := fit.outside f (same.subset inF) insertion e (same.subset inE) replaces
    have below := strict insertion
    omega

/-- Applying edits that fit is splicing them line by line. -/
theorem applyEdits_eq_spliced {source : String}
    (fit : Fit (closedLines source (newlineOf source.toList)).length edits) :
    applyEdits source edits = String.join (spliced (newlineOf source.toList) edits 1
      (closedLines source (newlineOf source.toList))) := by
  have same := List.mergeSort_perm edits LineEdit.precedes
  have below : ∀ e ∈ edits.mergeSort LineEdit.precedes, 1 ≤ e.first := fun e member =>
    (fit.inside e (same.subset member)).1
  rw [applyEdits, applySorted_eq (le_refl 1) (by omega) fit.follow below fun e member =>
    (fit.inside e (same.subset member)).2, spliced_mergeSort]
  rfl

end ProbeWeave.Weaving
