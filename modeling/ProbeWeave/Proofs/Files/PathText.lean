import ProbeWeave.Files.Path

/-! # Reading and writing paths

A path that was read has at most two slashes in front, and its names stand for steps: none is empty, a
single point or has a slash inside. Such a path is read back from how it is written.
-/

namespace ProbeWeave.Files.Path

/-- Whether a path is as reading gives it. -/
structure Normal (p : Path) : Prop where
  slashes : p.slashes ≤ 2
  stepped : ∀ name ∈ p.names, name ≠ "" ∧ name ≠ "."
  whole : ∀ name ∈ p.names, '/' ∉ name.toList

theorem not_mem_of_mem_splitOn {c : Char} {cs piece : List Char} (member : piece ∈ cs.splitOn c) :
    c ∉ piece := by
  induction cs generalizing piece with
  | nil =>
    obtain rfl : piece = [] := by simpa using member
    exact List.not_mem_nil
  | cons first rest ih =>
    rw [List.splitOn_cons_eq_if_modifyHead] at member
    by_cases cut : first = c
    · rw [if_pos (beq_iff_eq.mpr cut), List.mem_cons] at member
      rcases member with rfl | member
      · exact List.not_mem_nil
      · exact ih member
    · rw [if_neg (by simpa using cut)] at member
      obtain ⟨head, tail, pieces⟩ := List.exists_cons_of_ne_nil (List.splitOn_ne_nil c rest)
      rw [pieces, List.modifyHead_cons, List.mem_cons] at member
      rcases member with rfl | member
      · have later := ih (pieces ▸ List.mem_cons_self)
        simpa [Ne.symm cut] using later
      · exact ih (pieces ▸ List.mem_cons_of_mem _ member)

/-- Whatever is read as a path is as reading gives it. -/
theorem normal_ofText (s : String) : (ofText s).Normal := by
  refine ⟨?_, fun name member => ?_, fun name member => ?_⟩
  · simp only [ofText]
    split <;> omega
  · simpa using (List.mem_filter.mp member).2
  · obtain ⟨piece, cut, rfl⟩ := List.mem_map.mp (List.mem_filter.mp member).1
    rw [String.toList_ofList]
    exact not_mem_of_mem_splitOn cut

/-- A slash in front adds no step. -/
theorem stepsOf_slashes (n : Nat) (cs : List Char) :
    stepsOf (String.ofList (List.replicate n '/' ++ cs)) = stepsOf (String.ofList cs) := by
  induction n with
  | zero => rfl
  | succ n ih =>
    rw [← ih, List.replicate_succ, List.cons_append]
    simp [stepsOf, List.splitOn_cons_eq_if_modifyHead]

/-- Names between slashes are read back. -/
theorem stepsOf_intercalate {names : List String} (stepped : ∀ name ∈ names, name ≠ "" ∧ name ≠ ".")
    (whole : ∀ name ∈ names, '/' ∉ name.toList) : stepsOf ("/".intercalate names) = names := by
  by_cases none_ : names = []
  · rw [none_]
    decide
  · have chars : String.ofList ∘ String.toList = id := by
      funext s
      exact String.ofList_toList
    have pieces : ("/".intercalate names).toList.splitOn '/' = names.map String.toList := by
      rw [String.toList_intercalate]
      refine List.splitOn_intercalate '/' ?_ (by simpa using none_)
      intro piece member
      obtain ⟨name, inside, rfl⟩ := List.mem_map.mp member
      exact whole name inside
    rw [stepsOf, pieces, List.map_map, chars, List.map_id, List.filter_eq_self]
    intro name member
    simpa using stepped name member

/-- What stands in front of the first step is no slash. -/
theorem head?_intercalate {names : List String} (stepped : ∀ name ∈ names, name ≠ "" ∧ name ≠ ".")
    (whole : ∀ name ∈ names, '/' ∉ name.toList) : ("/".intercalate names).toList.head? ≠ some '/' := by
  cases names with
  | nil => decide
  | cons name rest =>
    have nonempty : name.toList ≠ [] := by
      simpa using (stepped name List.mem_cons_self).1
    obtain ⟨c, cs, chars⟩ := List.exists_cons_of_ne_nil nonempty
    have first : c ≠ '/' := by
      rintro rfl
      exact whole name List.mem_cons_self (chars ▸ List.mem_cons_self)
    cases rest with
    | nil => simpa [String.toList_intercalate, chars] using first
    | cons next rest => simpa [String.toList_intercalate, chars] using first

/-- A path is read back from how it is written. -/
theorem ofText_text {p : Path} (normal : p.Normal) : ofText p.text = p := by
  obtain ⟨slashes, names⟩ := p
  obtain ⟨few, stepped, whole⟩ := normal
  dsimp only at few stepped whole
  by_cases here : slashes = 0 ∧ names = []
  · obtain ⟨rfl, rfl⟩ := here
    decide
  · have written : (text ⟨slashes, names⟩) =
        String.ofList (List.replicate slashes '/' ++ ("/".intercalate names).toList) := by
      rw [text, if_neg (by simpa using here), String.ofList_append, String.ofList_toList]
    have leading : (List.replicate slashes '/' ++ ("/".intercalate names).toList).takeWhile (· == '/') =
        List.replicate slashes '/' := by
      rw [List.takeWhile_append_of_pos (by simp)]
      have first := head?_intercalate stepped whole
      generalize ("/".intercalate names).toList = cs at first
      cases cs with
      | nil => simp
      | cons c cs =>
        have other : (c == '/') = false := by simpa using first
        rw [List.takeWhile_cons_of_neg (by simp [other]), List.append_nil]
    rw [written, ofText, stepsOf_slashes, String.ofList_toList, stepsOf_intercalate stepped whole,
      String.toList_ofList, leading, List.length_replicate]
    congr 1
    split
    · rename_i two
      simpa using (beq_iff_eq.mp two).symm
    · rename_i other
      have more : slashes ≠ 2 := by simpa using other
      omega

theorem text_ne_empty {p : Path} (normal : p.Normal) : p.text ≠ "" := by
  intro empty
  have read := ofText_text normal
  rw [empty] at read
  subst read
  revert empty
  decide

end ProbeWeave.Files.Path
