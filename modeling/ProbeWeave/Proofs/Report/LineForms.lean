import Mathlib.Data.List.Basic
import Mathlib.Data.List.TakeWhile
import ProbeWeave.Report.Log

/-! # What the lines of a log look like

A line is a header if a label stands in it between brackets and words that are always the same, and it is a
measured line if it has markers, a kind, a label, a time and its text, each at its place. Blanks may
follow. No line is both, and what is read from a line is what stands there.
-/

namespace ProbeWeave.Text

/-- Whether no blank ends a text. -/
def Trimmed (s : String) : Prop :=
  ∀ c ∈ s.toList.getLast?, isBlank c = false

-- Searching the text decides it; trying all characters would, too, but takes too long.
instance (s : String) : Decidable (Trimmed s) :=
  decidable_of_iff (s.toList.getLast?.all (!isBlank ·) = true)
    (by rw [Trimmed]; cases s.toList.getLast? <;> simp)

theorem dropEndWhile_concat {α : Type} {test : α → Bool} (xs : List α) {x : α}
    (last : test x = false) : dropEndWhile test (xs ++ [x]) = xs ++ [x] := by
  rw [dropEndWhile, List.reverse_concat, List.dropWhile_cons_of_neg (by simp [last])]
  simp

theorem Trimmed.dropEndWhile {s : String} (trimmed : Trimmed s) :
    dropEndWhile isBlank s.toList = s.toList := by
  unfold Trimmed at trimmed
  rcases List.eq_nil_or_concat' s.toList with none | ⟨front, c, some⟩
  · rw [none]
    rfl
  · rw [some] at trimmed ⊢
    exact dropEndWhile_concat front (trimmed c (by simp))

theorem dropEndWhile_append_of_all {α : Type} {test : α → Bool} (xs : List α) {ys : List α}
    (all : ∀ y ∈ ys, test y = true) : dropEndWhile test (xs ++ ys) = dropEndWhile test xs := by
  rw [dropEndWhile, List.reverse_append,
    List.dropWhile_append_of_pos fun y member => all y (List.mem_reverse.mp member), dropEndWhile]

/-- What is dropped at the end of a list passes the test, and the last element that is kept does not. -/
theorem exists_dropped {α : Type} (test : α → Bool) (xs : List α) :
    (∃ ys, (∀ y ∈ ys, test y = true) ∧ xs = dropEndWhile test xs ++ ys) ∧
      ∀ x ∈ (dropEndWhile test xs).getLast?, test x = false := by
  refine ⟨⟨(xs.reverse.takeWhile test).reverse, fun y member => ?_, ?_⟩, fun x last => ?_⟩
  · exact List.mem_takeWhile_imp (List.mem_reverse.mp member)
  · rw [dropEndWhile, ← List.reverse_append, List.takeWhile_append_dropWhile, List.reverse_reverse]
  · rw [dropEndWhile, List.getLast?_reverse] at last
    have first := List.head?_dropWhile_not test xs.reverse
    rw [last] at first
    exact first

end ProbeWeave.Text

namespace ProbeWeave.Report

namespace LogLine

theorem isPrefixOf?_append (front rest : List Char) : front.isPrefixOf? (front ++ rest) = some rest :=
  List.isPrefixOf?_eq_some_iff_append_eq.mpr rfl

end LogLine

/-! ### Headers -/

/-- Whether a line is the header of a report with a label. -/
def Heads (line entry : String) : Prop :=
  ∃ blanks, (∀ c ∈ blanks, Text.isBlank c = true) ∧
    line.toList = "[Inside method: ".toList ++ (entry.toList ++ ']' :: blanks)

theorem header?_eq_some_iff {line entry : String} :
    LogLine.header? line.toList = some entry ↔ Heads line entry := by
  constructor
  · intro found
    obtain ⟨⟨blanks, blank, whole⟩, -⟩ := Text.exists_dropped Text.isBlank line.toList
    rw [LogLine.header?] at found
    obtain ⟨rest, begins, found⟩ := Option.bind_eq_some_iff.mp found
    rw [List.isPrefixOf?_eq_some_iff_append_eq] at begins
    split at found
    · rename_i closed
      rw [beq_iff_eq] at closed
      cases found
      have last := List.dropLast_append_getLast? ']' closed
      refine ⟨blanks, blank, ?_⟩
      rw [String.toList_ofList, whole, ← begins, ← last]
      simp
    · cases found
  · rintro ⟨blanks, blank, whole⟩
    have split : line.toList = "[Inside method: ".toList ++ entry.toList ++ [']'] ++ blanks := by
      rw [whole]
      simp
    rw [LogLine.header?, split, Text.dropEndWhile_append_of_all _ blank,
      Text.dropEndWhile_concat _ (by decide), List.append_assoc, LogLine.isPrefixOf?_append]
    simp

/-! ### Measured lines -/

/-- What stands in a measured line. -/
structure Parts where
  depth : Nat
  kind : LineKind
  label : String
  negative : Bool
  digits : List Char
  elapsed : String

namespace Parts

/-- The sign in front of the digits. -/
def sign (p : Parts) : List Char :=
  if p.negative then ['-'] else []

/-- The values of the digits. -/
def values (p : Parts) : List Nat :=
  p.digits.filterMap Text.digitValue?

/-- What the line says. -/
def measurement (p : Parts) : Measurement :=
  ⟨p.depth, p.kind, p.label, Number.signed p.negative (Number.ofDigits p.values), p.elapsed⟩

/-- Whether a line is made of these parts: each ends where the text behind it begins, and only blanks
follow the last one. -/
structure Fits (p : Parts) (line : String) : Prop where
  label : ']' ∉ p.label.toList
  nonempty : p.digits ≠ []
  digits : ∀ c ∈ p.digits, Text.isDigit c = true
  trimmed : Text.Trimmed p.elapsed
  text : ∃ blanks, (∀ c ∈ blanks, Text.isBlank c = true) ∧
    line.toList = (markers p.depth).toList ++ (("[" ++ p.kind.text ++ ": ").toList ++
      (p.label.toList ++ ("] Time: ".toList ++ (p.sign ++ (p.digits ++
        (" ms - ".toList ++ (p.elapsed.toList ++ blanks)))))))

theorem values_length {p : Parts} (digits : ∀ c ∈ p.digits, Text.isDigit c = true) :
    p.values.length = p.digits.length := by
  rw [values, List.length_filterMap_eq_countP, List.countP_eq_length]
  exact digits

end Parts

namespace LogLine

theorem toList_markers_succ (n : Nat) :
    (markers (n + 1)).toList = '|' :: ' ' :: (markers n).toList := by
  rw [markers, List.replicate_succ, String.join_cons, String.toList_append, ← markers]
  rfl

theorem leadingMarkers_markers (depth : Nat) (rest : List Char) :
    leadingMarkers ((markers depth).toList ++ '[' :: rest) = (depth, '[' :: rest) := by
  induction depth with
  | zero => rw [markers, List.replicate_zero]; rfl
  | succ n ih =>
    rw [toList_markers_succ, List.cons_append, List.cons_append, leadingMarkers, ih]

theorem eq_append_of_leadingMarkers {cs rest : List Char} {n : Nat}
    (found : leadingMarkers cs = (n, rest)) : cs = (markers n).toList ++ rest := by
  induction cs using leadingMarkers.induct generalizing n with
  | case1 more k after below ih =>
    rw [leadingMarkers, below] at found
    cases found
    rw [toList_markers_succ, List.cons_append, List.cons_append, ← ih below]
  | case2 cs other =>
    rw [leadingMarkers] at found
    · cases found
      rfl
    · exact other

theorem leadingKind?_text (kind : LineKind) (rest : List Char) :
    leadingKind? (("[" ++ kind.text ++ ": ").toList ++ rest) = some (kind, rest) := by
  cases kind <;> rfl

theorem eq_append_of_leadingKind? {cs rest : List Char} {kind : LineKind}
    (found : leadingKind? cs = some (kind, rest)) :
    cs = ("[" ++ kind.text ++ ": ").toList ++ rest := by
  obtain ⟨candidate, -, found⟩ := List.exists_of_findSome?_eq_some found
  obtain ⟨after, begins, same⟩ := Option.map_eq_some_iff.mp found
  cases same
  exact (List.isPrefixOf?_eq_some_iff_append_eq.mp begins).symm

/-- A sign is taken for one only where digits stand behind it. -/
theorem sign_eq {p : Parts} (nonempty : p.digits ≠ [])
    (digits : ∀ c ∈ p.digits, Text.isDigit c = true) (rest : List Char) :
    (if (p.sign ++ (p.digits ++ rest)).head? == some '-' then
        (true, (p.sign ++ (p.digits ++ rest)).tail)
      else (false, p.sign ++ (p.digits ++ rest))) = (p.negative, p.digits ++ rest) := by
  rw [Parts.sign]
  cases p.negative with
  | true => rfl
  | false =>
    obtain ⟨c, cs, some⟩ := List.exists_cons_of_ne_nil nonempty
    have digit := digits c (some ▸ List.mem_cons_self)
    have other : c ≠ '-' := by
      rintro rfl
      exact absurd digit (by decide)
    simp [some, other]

theorem measuredParts?_of_fits {p : Parts} {line : String} (fits : p.Fits line) :
    measuredParts? line.toList = some ({ p.measurement with milliseconds := 0 }, p.negative, p.values) := by
  obtain ⟨blanks, blank, whole⟩ := fits.text
  have inLabel : ∀ c ∈ p.label.toList, (c != ']') = true := fun c member => by
    simpa using fun same : c = ']' => fits.label (same ▸ member)
  have bracket (rest : List Char) : ("[" ++ p.kind.text ++ ": ").toList ++ rest =
      '[' :: ((p.kind.text ++ ": ").toList ++ rest) := by
    simp
  have stop (rest : List Char) : "] Time: ".toList ++ rest = ']' :: (" Time: ".toList ++ rest) := rfl
  have unit (rest : List Char) : " ms - ".toList ++ rest = ' ' :: ("ms - ".toList ++ rest) := rfl
  have some : p.values.isEmpty = false := by
    rw [List.isEmpty_eq_false_iff, ← List.length_pos_iff, Parts.values_length fits.digits]
    exact List.length_pos_iff.mpr fits.nonempty
  rw [measuredParts?, whole, bracket, leadingMarkers_markers, ← bracket]
  dsimp only
  rw [leadingKind?_text]
  dsimp only [Option.bind_eq_bind, Option.bind]
  rw [stop, List.takeWhile_append_of_pos inLabel, List.dropWhile_append_of_pos inLabel,
    List.takeWhile_cons_of_neg (by decide), List.dropWhile_cons_of_neg (by decide), ← stop,
    isPrefixOf?_append]
  dsimp only
  rw [sign_eq fits.nonempty fits.digits]
  dsimp only
  rw [unit, List.takeWhile_append_of_pos fits.digits, List.dropWhile_append_of_pos fits.digits,
    List.takeWhile_cons_of_neg (by decide), List.dropWhile_cons_of_neg (by decide), ← unit,
    isPrefixOf?_append, List.append_nil, ← Parts.values, some]
  dsimp only
  rw [Text.dropEndWhile_append_of_all _ blank, fits.trimmed.dropEndWhile]
  simp [Parts.measurement]

/-- What stands behind the sign of a time. -/
theorem eq_append_of_sign {cs rest : List Char} {negative : Bool}
    (found : (if cs.head? == some '-' then (true, cs.tail) else (false, cs)) = (negative, rest)) :
    cs = (if negative then ['-'] else []) ++ rest := by
  split at found <;> cases found
  · rename_i begins
    obtain ⟨more, rfl⟩ := List.head?_eq_some_iff.mp (beq_iff_eq.mp begins)
    rfl
  · rfl

/-- What is read from a line is what stands there. -/
theorem fits_of_measuredParts? {line : String} {m : Measurement} {negative : Bool}
    {values : List Nat} (found : measuredParts? line.toList = some (m, negative, values)) :
    ∃ p : Parts, p.Fits line := by
  rw [measuredParts?] at found
  generalize behindMarkers : leadingMarkers line.toList = levels at found
  obtain ⟨depth, rest⟩ := levels
  obtain ⟨⟨kind, behindKind⟩, named, found⟩ := Option.bind_eq_some_iff.mp found
  obtain ⟨behindLabel, closed, found⟩ := Option.bind_eq_some_iff.mp found
  dsimp only at found
  generalize behindSign : (if behindLabel.head? == some '-' then (true, behindLabel.tail)
    else (false, behindLabel)) = signed at found
  obtain ⟨minus, time⟩ := signed
  obtain ⟨behindTime, unit, found⟩ := Option.bind_eq_some_iff.mp found
  dsimp only at found unit
  split at found
  · cases found
  rename_i some
  obtain ⟨label, clean, inLabel⟩ : ∃ label : List Char, ']' ∉ label ∧
      behindKind = label ++ ("] Time: ".toList ++ behindLabel) := by
    refine ⟨behindKind.takeWhile (· != ']'), fun bracket => ?_, ?_⟩
    · exact absurd (List.mem_takeWhile_imp bracket) (by decide)
    · rw [List.isPrefixOf?_eq_some_iff_append_eq.mp closed, List.takeWhile_append_dropWhile]
  obtain ⟨digits, nonempty, all, inTime⟩ : ∃ digits : List Char, digits ≠ [] ∧
      (∀ c ∈ digits, Text.isDigit c = true) ∧ time = digits ++ (" ms - ".toList ++ behindTime) := by
    refine ⟨time.takeWhile Text.isDigit, fun none => some ?_, fun c member => ?_, ?_⟩
    · rw [none]
      rfl
    · exact List.mem_takeWhile_imp member
    · rw [List.isPrefixOf?_eq_some_iff_append_eq.mp unit, List.takeWhile_append_dropWhile]
  obtain ⟨⟨blanks, blank, inElapsed⟩, last⟩ := Text.exists_dropped Text.isBlank behindTime
  generalize Text.dropEndWhile Text.isBlank behindTime = elapsed at inElapsed last
  refine ⟨⟨depth, kind, String.ofList label, minus, digits, String.ofList elapsed⟩, ?_, nonempty, all, ?_,
    blanks, blank, ?_⟩
  · rwa [String.toList_ofList]
  · rwa [Text.Trimmed, String.toList_ofList]
  · rw [eq_append_of_leadingMarkers behindMarkers, eq_append_of_leadingKind? named, inLabel,
      eq_append_of_sign behindSign, inTime, inElapsed, Parts.sign]
    dsimp only
    rw [String.toList_ofList (l := label), String.toList_ofList (l := elapsed)]

/-- A measured line is no header: it begins with a marker or names another kind. -/
theorem header?_of_fits {p : Parts} {line : String} (fits : p.Fits line) :
    header? line.toList = none := by
  obtain ⟨blanks, -, whole⟩ := fits.text
  refine Option.eq_none_iff_forall_ne_some.mpr fun entry found => ?_
  obtain ⟨other, -, same⟩ := header?_eq_some_iff.mp found
  rw [whole] at same
  cases depth : p.depth with
  | zero =>
    rw [depth] at same
    cases kind : p.kind <;>
    · rw [kind] at same
      injection same with _ same
      injection same with second
      exact absurd second (by decide)
  | succ n =>
    rw [depth, toList_markers_succ] at same
    injection same with first
    exact absurd first (by decide)

/-! ### What is read from a line -/

theorem ofText_of_heads {line entry : String} (heads : Heads line entry) :
    ofText line = .ok (.header entry) := by
  rw [ofText, header?_eq_some_iff.mpr heads]

/-- A measured line is read as what stands in it, unless its time has too many digits. -/
theorem ofText_of_fits {p : Parts} {line : String} (fits : p.Fits line) :
    ofText line = if p.digits.length ≤ Number.digitLimit then .ok (.measured p.measurement)
      else .error (.tooLong p.digits.length) := by
  rw [ofText, header?_of_fits fits, measuredParts?_of_fits fits]
  dsimp only
  rw [Number.limitedOfDigits, Parts.values_length fits.digits]
  by_cases few : p.digits.length ≤ Number.digitLimit
  · rw [if_pos few, if_neg (Nat.not_lt.mpr few)]
    rfl
  · rw [if_neg few, if_pos (Nat.lt_of_not_le few)]
    rfl

end LogLine

/-- Whether a line is a header. -/
def IsHeader (line : String) : Prop :=
  ∃ entry, Heads line entry

/-- Whether a line is a measured line. -/
def IsMeasured (line : String) : Prop :=
  ∃ p : Parts, p.Fits line

namespace LogLine

theorem isSome_header?_iff {line : String} :
    (header? line.toList).isSome = true ↔ IsHeader line := by
  rw [Option.isSome_iff_exists]
  exact exists_congr fun entry => header?_eq_some_iff

theorem isSome_measuredParts?_iff {line : String} :
    (measuredParts? line.toList).isSome = true ↔ IsMeasured line := by
  rw [Option.isSome_iff_exists]
  exact ⟨fun ⟨x, found⟩ => fits_of_measuredParts? found, fun ⟨p, fits⟩ =>
    ⟨_, measuredParts?_of_fits fits⟩⟩

/-- Other lines are passed over. -/
theorem ofText_of_neither {line : String} (header : ¬IsHeader line) (measured : ¬IsMeasured line) :
    ofText line = .ok .other := by
  rw [← isSome_header?_iff, Option.not_isSome_iff_eq_none] at header
  rw [← isSome_measuredParts?_iff, Option.not_isSome_iff_eq_none] at measured
  rw [ofText, header, measured]

end LogLine

instance : DecidablePred IsHeader := fun _ =>
  decidable_of_iff _ LogLine.isSome_header?_iff

instance : DecidablePred IsMeasured := fun _ =>
  decidable_of_iff _ LogLine.isSome_measuredParts?_iff

end ProbeWeave.Report
