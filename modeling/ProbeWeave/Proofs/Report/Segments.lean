import Mathlib.Data.List.Forall2
import Mathlib.Data.List.Induction
import ProbeWeave.Proofs.Report.Readback

/-! # How a log is divided into reports

The number of a report is kept while its lines are read, and each header raises it, so two measured lines
have one number exactly if no header stands between them. The name is that of the last header above.
What is neither a header nor a measured line could as well not be there.
-/

namespace ProbeWeave.Report

namespace LogLine

/-! ### Lines with readable times -/

/-- What a line says if its time can be read. -/
def told (line : String) : LogLine :=
  match header? line.toList with
  | some entry => .header entry
  | none =>
    match measuredParts? line.toList with
    | some (m, negative, digits) =>
      .measured { m with milliseconds := Number.signed negative (Number.ofDigits digits) }
    | none => .other

theorem told_of_fits {p : Parts} {line : String} (fits : p.Fits line) :
    told line = .measured p.measurement := by
  rw [told, header?_of_fits fits, measuredParts?_of_fits fits]
  rfl

/-- A line is a header, a measured line or neither. -/
theorem told_cases (line : String) :
    (∃ entry, Heads line entry ∧ ¬IsMeasured line ∧ told line = .header entry) ∨
      (∃ p : Parts, p.Fits line ∧ ¬IsHeader line ∧ told line = .measured p.measurement) ∨
      (¬IsHeader line ∧ ¬IsMeasured line ∧ told line = .other) := by
  by_cases header : IsHeader line
  · obtain ⟨entry, heads⟩ := header
    have found := header?_eq_some_iff.mpr heads
    refine .inl ⟨entry, heads, fun ⟨p, fits⟩ => ?_, by rw [told, found]⟩
    rw [header?_of_fits fits] at found
    cases found
  · have none := header
    rw [← isSome_header?_iff, Option.not_isSome_iff_eq_none] at none
    by_cases measured : IsMeasured line
    · obtain ⟨p, fits⟩ := measured
      exact .inr (.inl ⟨p, fits, header, told_of_fits fits⟩)
    · have nothing := measured
      rw [← isSome_measuredParts?_iff, Option.not_isSome_iff_eq_none] at nothing
      exact .inr (.inr ⟨header, measured, by rw [told, none, nothing]⟩)

/-- The time of a line can be read: it has not too many digits. -/
def Readable (line : String) : Prop :=
  ∀ p : Parts, p.Fits line → p.digits.length ≤ Number.digitLimit

/-- The parts of a line have the same number of digits however they are found. -/
theorem length_digits_eq {p q : Parts} {line : String} (first : p.Fits line) (second : q.Fits line) :
    p.digits.length = q.digits.length := by
  have found := measuredParts?_of_fits first
  rw [measuredParts?_of_fits second, Option.some.injEq, Prod.mk.injEq, Prod.mk.injEq] at found
  rw [← Parts.values_length first.digits, ← Parts.values_length second.digits, found.2.2]

theorem ofText_eq_ok_iff {line : String} {l : LogLine} :
    ofText line = .ok l ↔ Readable line ∧ told line = l := by
  obtain ⟨entry, heads, other, same⟩ | ⟨p, fits, -, same⟩ | ⟨header, measured, same⟩ := told_cases line
  · have readable : Readable line := fun p fits => absurd ⟨p, fits⟩ other
    rw [ofText_of_heads heads, same, Except.ok.injEq]
    exact (and_iff_right readable).symm
  · have readable : Readable line ↔ p.digits.length ≤ Number.digitLimit := by
      refine ⟨fun each => each p fits, fun few q other => ?_⟩
      rwa [length_digits_eq other fits]
    rw [ofText_of_fits fits, same, readable]
    by_cases few : p.digits.length ≤ Number.digitLimit
    · simp [few]
    · simp [few]
  · have readable : Readable line := fun p fits => absurd ⟨p, fits⟩ measured
    rw [ofText_of_neither header measured, same, Except.ok.injEq]
    exact (and_iff_right readable).symm

/-- The label of a header. -/
def label? : LogLine → Option String
  | header entry => some entry
  | measured _ => none
  | other => none

/-- The labels of the headers among some lines. -/
def labels (xs : List LogLine) : List String :=
  xs.filterMap label?

theorem labels_append (xs ys : List LogLine) : labels (xs ++ ys) = labels xs ++ labels ys :=
  List.filterMap_append

theorem labels_concat {x : LogLine} (unnamed : label? x = none) (xs : List LogLine) :
    labels (xs ++ [x]) = labels xs := by
  rw [labels_append, labels, labels, List.filterMap_cons_none unnamed, List.filterMap_nil,
    List.append_nil]

theorem labels_header (entry : String) (xs : List LogLine) :
    labels (.header entry :: xs) = entry :: labels xs :=
  rfl

end LogLine

/-! ### Numbers and names -/

section Entries

variable {report : Option Nat} {entry : String}

/-- The number and the name of the report that goes on behind some lines. -/
def behind (report : Option Nat) (entry : String) : List LogLine → Option Nat × String
  | [] => (report, entry)
  | .header entry :: rest => behind (some (nextReport report)) entry rest
  | .measured _ :: rest => behind (some (report.getD 0)) entry rest
  | .other :: rest => behind report entry rest

theorem entriesFrom_append (xs ys : List LogLine) :
    entriesFrom report entry (xs ++ ys) = entriesFrom report entry xs ++
      entriesFrom (behind report entry xs).1 (behind report entry xs).2 ys := by
  induction xs generalizing report entry with
  | nil => rfl
  | cons x rest ih =>
    cases x with
    | header label => exact ih
    | measured m => exact congrArg _ ih
    | other => exact ih

theorem behind_append (xs ys : List LogLine) : behind report entry (xs ++ ys) =
    behind (behind report entry xs).1 (behind report entry xs).2 ys := by
  induction xs generalizing report entry with
  | nil => rfl
  | cons x rest ih => cases x <;> exact ih

/-- The name is that of the last header. -/
theorem behind_name (xs : List LogLine) :
    (behind report entry xs).2 = (LogLine.labels xs).getLast?.getD entry := by
  induction xs generalizing report entry with
  | nil => rfl
  | cons x rest ih =>
    cases x with
    | header label =>
      rw [behind, ih, LogLine.labels_header, List.getLast?_cons]
      rfl
    | measured m => exact ih
    | other => exact ih

/-- Every header raises the number. -/
theorem behind_number (n : Nat) (xs : List LogLine) :
    (behind (some n) entry xs).1 = some (n + (LogLine.labels xs).length) := by
  induction xs generalizing n entry with
  | nil => rfl
  | cons x rest ih =>
    cases x with
    | header label =>
      rw [behind, ih, LogLine.labels_header, List.length_cons, nextReport, Nat.add_right_comm,
        Nat.add_assoc]
    | measured m => exact ih n
    | other => exact ih n

/-- What is passed over changes nothing. -/
theorem entriesFrom_filter (xs : List LogLine) :
    entriesFrom report entry (xs.filter (· ≠ .other)) = entriesFrom report entry xs := by
  induction xs generalizing report entry with
  | nil => rfl
  | cons x rest ih =>
    cases x with
    | header label => exact ih
    | measured m => exact congrArg (List.cons _) ih
    | other => exact ih

/-- Numbers do not fall, and lines of one number have one name. -/
structure Entry.Follows (a b : Entry) : Prop where
  number : a.report ≤ b.report
  name : a.report = b.report → a.entry = b.entry

theorem follows_entriesFrom (xs : List LogLine) :
    (entriesFrom report entry xs).Pairwise Entry.Follows ∧
      ∀ n, report = some n → ∀ b ∈ entriesFrom report entry xs,
        n ≤ b.report ∧ (n = b.report → entry = b.entry) := by
  induction xs generalizing report entry with
  | nil => exact ⟨.nil, fun n _ b member => absurd member List.not_mem_nil⟩
  | cons x rest ih =>
    cases x with
    | header label =>
      obtain ⟨inner, later⟩ := @ih (some (nextReport report)) label
      refine ⟨inner, fun n same b member => ?_⟩
      subst same
      have larger := (later _ rfl b member).1
      rw [nextReport] at larger
      exact ⟨by omega, fun equal => by omega⟩
    | measured m =>
      obtain ⟨inner, later⟩ := @ih (some (report.getD 0)) entry
      refine ⟨List.pairwise_cons.mpr ⟨fun b member => ?_, inner⟩, fun n same b member => ?_⟩
      · obtain ⟨number, name⟩ := later _ rfl b member
        exact ⟨number, name⟩
      · subst same
        rcases List.mem_cons.mp member with rfl | member
        · exact ⟨Nat.le_refl _, fun _ => rfl⟩
        · exact later _ rfl b member
    | other => exact ih

end Entries

/-! ### Lines of a text -/

section Lines

variable {lines : List String} {report : Option Nat} {entry : String}

/-- A log is read if the times of all its lines can be. -/
theorem mapM_ofText_iff {ls : List LogLine} : lines.mapM LogLine.ofText = .ok ls ↔
    (∀ line ∈ lines, LogLine.Readable line) ∧ lines.map LogLine.told = ls := by
  induction lines generalizing ls with
  | nil => simp [Outcome.pure_eq_ok]
  | cons line rest ih =>
    rw [List.mapM_cons, Outcome.bind_eq_ok, List.forall_mem_cons, List.map_cons]
    constructor
    · rintro ⟨l, first, later⟩
      obtain ⟨readable, rfl⟩ := LogLine.ofText_eq_ok_iff.mp first
      obtain ⟨others, later, same⟩ := Outcome.bind_eq_ok.mp later
      obtain ⟨all, rfl⟩ := ih.mp later
      exact ⟨⟨readable, all⟩, Outcome.pure_eq_ok.mp same⟩
    · rintro ⟨⟨readable, all⟩, rfl⟩
      exact ⟨_, LogLine.ofText_eq_ok_iff.mpr ⟨readable, rfl⟩,
        Outcome.bind_eq_ok.mpr ⟨_, ih.mpr ⟨all, rfl⟩, rfl⟩⟩

theorem readLog_eq_ok_iff {text : String} {entries : List Entry} : readLog text = .ok entries ↔
    (∀ line ∈ Text.textLines text, LogLine.Readable line) ∧
      entriesFrom none "" ((Text.textLines text).map LogLine.told) = entries := by
  rw [readLog, Outcome.bind_eq_ok]
  constructor
  · rintro ⟨ls, read, same⟩
    obtain ⟨readable, rfl⟩ := mapM_ofText_iff.mp read
    exact ⟨readable, Outcome.pure_eq_ok.mp same⟩
  · rintro ⟨readable, rfl⟩
    exact ⟨_, mapM_ofText_iff.mpr ⟨readable, rfl⟩, rfl⟩

/-- There is an entry for every measured line, in their order. -/
theorem forall₂_entriesFrom : List.Forall₂
    (fun line (e : Entry) => ∃ p : Parts, p.Fits line ∧ e.toMeasurement = p.measurement)
    (lines.filter (IsMeasured ·)) (entriesFrom report entry (lines.map LogLine.told)) := by
  induction lines generalizing report entry with
  | nil => exact .nil
  | cons line rest ih =>
    rw [List.map_cons]
    obtain ⟨label, -, other, same⟩ | ⟨p, fits, -, same⟩ | ⟨-, measured, same⟩ := LogLine.told_cases line
    · rw [List.filter_cons_of_neg (by simpa using other), same, entriesFrom]
      exact ih
    · have measured : IsMeasured line := ⟨p, fits⟩
      rw [List.filter_cons_of_pos (by simpa using measured), same, entriesFrom]
      exact .cons ⟨p, fits, rfl⟩ ih
    · rw [List.filter_cons_of_neg (by simpa using measured), same, entriesFrom]
      exact ih

theorem labels_eq_nil_iff :
    LogLine.labels (lines.map LogLine.told) = [] ↔ ∀ line ∈ lines, ¬IsHeader line := by
  rw [LogLine.labels, List.filterMap_eq_nil_iff, List.forall_mem_map]
  refine forall₂_congr fun line _ => ?_
  obtain ⟨label, heads, -, same⟩ | ⟨p, -, header, same⟩ | ⟨header, -, same⟩ := LogLine.told_cases line
  · rw [same]
    exact iff_of_false (Option.some_ne_none label) fun none => none ⟨label, heads⟩
  · rw [same]
    exact iff_of_true rfl header
  · rw [same]
    exact iff_of_true rfl header

/-- The label of the last header among some lines; it is empty if there is none. -/
def LastLabel (lines : List String) (entry : String) : Prop :=
  ((∀ line ∈ lines, ¬IsHeader line) ∧ entry = "") ∨
    ∃ front line back, lines = front ++ line :: back ∧ Heads line entry ∧ ∀ l ∈ back, ¬IsHeader l

/-- Another line behind changes nothing unless it is a header. -/
theorem LastLabel.concat (last : LastLabel lines entry) {line : String} (other : ¬IsHeader line) :
    LastLabel (lines ++ [line]) entry := by
  obtain ⟨none, empty⟩ | ⟨front, header, back, rfl, heads, none⟩ := last
  · exact .inl ⟨List.forall_mem_append.mpr ⟨none, List.forall_mem_singleton.mpr other⟩, empty⟩
  · refine .inr ⟨front, header, back ++ [line], by simp, heads, ?_⟩
    exact List.forall_mem_append.mpr ⟨none, List.forall_mem_singleton.mpr other⟩

theorem lastLabel_getLast? :
    LastLabel lines ((LogLine.labels (lines.map LogLine.told)).getLast?.getD "") := by
  induction lines using List.reverseRecOn with
  | nil => exact .inl ⟨by simp, rfl⟩
  | append_singleton before line ih =>
    rw [List.map_append, List.map_singleton]
    obtain ⟨label, heads, -, same⟩ | ⟨p, -, header, same⟩ | ⟨header, -, same⟩ := LogLine.told_cases line
    · refine .inr ⟨before, line, [], rfl, ?_, by simp⟩
      rwa [same, LogLine.labels_append, LogLine.labels_header, List.getLast?_append_cons]
    · rw [same, LogLine.labels_concat rfl]
      exact ih.concat header
    · rw [same, LogLine.labels_concat rfl]
      exact ih.concat header

end Lines

/-! ### Reports in a log -/

/-- Whether a line is not passed over. -/
def Kept (line : String) : Prop :=
  IsHeader line ∨ IsMeasured line

instance : DecidablePred Kept := fun line =>
  inferInstanceAs (Decidable (IsHeader line ∨ IsMeasured line))

theorem told_ne_other_iff {line : String} : LogLine.told line ≠ .other ↔ Kept line := by
  obtain ⟨label, heads, -, same⟩ | ⟨p, fits, -, same⟩ | ⟨header, measured, same⟩ :=
    LogLine.told_cases line
  · rw [same]
    exact iff_of_true (by simp) (.inl ⟨label, heads⟩)
  · rw [same]
    exact iff_of_true (by simp) (.inr ⟨p, fits⟩)
  · rw [same]
    exact iff_of_false (by simp) (not_or.mpr ⟨header, measured⟩)

/-- Lines that are passed over need not be there. -/
theorem mapM_filter_kept (lines : List String) :
    ((lines.filter (Kept ·)).mapM LogLine.ofText).map (entriesFrom none "") =
      (lines.mapM LogLine.ofText).map (entriesFrom none "") := by
  have filtered : (lines.filter (Kept ·)).mapM LogLine.ofText =
      (lines.mapM LogLine.ofText).map (·.filter (· ≠ .other)) := by
    induction lines with
    | nil => rfl
    | cons line rest ih =>
      by_cases kept : Kept line
      · rw [List.filter_cons_of_pos (by simpa using kept), List.mapM_cons, List.mapM_cons, ih]
        cases read : LogLine.ofText line with
        | error fault => rfl
        | ok l =>
          have told : l ≠ .other := (LogLine.ofText_eq_ok_iff.mp read).2 ▸ told_ne_other_iff.mpr kept
          cases rest.mapM LogLine.ofText with
          | error fault => rfl
          | ok ls =>
            change Except.ok (l :: ls.filter (· ≠ .other)) = .ok ((l :: ls).filter (· ≠ .other))
            rw [List.filter_cons_of_pos (by simpa using told)]
      · obtain ⟨header, measured⟩ := not_or.mp kept
        rw [List.filter_cons_of_neg (by simpa using kept), List.mapM_cons, ih,
          LogLine.ofText_of_neither header measured]
        cases rest.mapM LogLine.ofText <;> rfl
  rw [filtered]
  cases lines.mapM LogLine.ofText with
  | error fault => rfl
  | ok ls => exact congrArg Except.ok (entriesFrom_filter ls)

theorem readLog_of_kept {text other : String}
    (same : (Text.textLines other).filter (Kept ·) = (Text.textLines text).filter (Kept ·)) :
    readLog other = readLog text := by
  have read (text : String) : readLog text =
      ((Text.textLines text).mapM LogLine.ofText).map (entriesFrom none "") := by
    rw [readLog]
    cases (Text.textLines text).mapM LogLine.ofText <;> rfl
  rw [read, read, ← mapM_filter_kept, same, mapM_filter_kept]

/-- The entry of a measured line has the number and the name that go on behind the lines above. -/
theorem entry_at {lines above below : List String} {line : String} {p : Parts}
    (split : lines = above ++ line :: below) (fits : p.Fits line) :
    (entriesFrom none "" (lines.map LogLine.told))[(above.filter (IsMeasured ·)).length]? =
      some { p.measurement with
        report := (behind none "" (above.map LogLine.told)).1.getD 0
        entry := (behind none "" (above.map LogLine.told)).2 } := by
  have before : (entriesFrom none "" (above.map LogLine.told)).length =
      (above.filter (IsMeasured ·)).length := forall₂_entriesFrom.length_eq.symm
  rw [split, List.map_append, List.map_cons, LogLine.told_of_fits fits, entriesFrom_append, ← before,
    List.getElem?_append_right (Nat.le_refl _), Nat.sub_self]
  rfl

/-- A log is read unless a time has too many digits, and then there is an entry for each measured line, in
their order. Numbers do not fall; two lines have one number exactly if no header stands between them, and
then one name, which is that of the last header above. Lines that are neither headers nor measured
lines could as well not be there. -/
theorem segmentation (text : String) :
    ((∃ entries, readLog text = .ok entries) ↔
      ∀ line ∈ Text.textLines text, ∀ p : Parts, p.Fits line → p.digits.length ≤ Number.digitLimit) ∧
    (∀ entries, readLog text = .ok entries →
      List.Forall₂ (fun line (e : Entry) => ∃ p : Parts, p.Fits line ∧ e.toMeasurement = p.measurement)
        ((Text.textLines text).filter (IsMeasured ·)) entries ∧
      entries.Pairwise (fun a b => a.report ≤ b.report) ∧
      (∀ above line below, Text.textLines text = above ++ line :: below → IsMeasured line →
        ∃ e, entries[(above.filter (IsMeasured ·)).length]? = some e ∧ LastLabel above e.entry) ∧
      ∀ above line between next below,
        Text.textLines text = above ++ line :: (between ++ next :: below) →
        IsMeasured line → IsMeasured next →
        ∃ a b, entries[(above.filter (IsMeasured ·)).length]? = some a ∧
          entries[((above ++ line :: between).filter (IsMeasured ·)).length]? = some b ∧
          (a.report = b.report ↔ ∀ l ∈ between, ¬IsHeader l) ∧
          (a.report = b.report → a.entry = b.entry)) ∧
    ∀ other, (Text.textLines other).filter (Kept ·) = (Text.textLines text).filter (Kept ·) →
      readLog other = readLog text := by
  refine ⟨?_, fun entries read => ?_, fun other same => readLog_of_kept same⟩
  · constructor
    · rintro ⟨entries, read⟩
      exact (readLog_eq_ok_iff.mp read).1
    · exact fun readable => ⟨_, readLog_eq_ok_iff.mpr ⟨readable, rfl⟩⟩
  obtain ⟨-, rfl⟩ := readLog_eq_ok_iff.mp read
  refine ⟨forall₂_entriesFrom, ?_, ?_, ?_⟩
  · exact (follows_entriesFrom _).1.imp Entry.Follows.number
  · rintro above line below split ⟨p, fits⟩
    refine ⟨_, entry_at split fits, ?_⟩
    rw [behind_name]
    exact lastLabel_getLast?
  · rintro above line between next below split ⟨p, fits⟩ ⟨q, fitsNext⟩
    have splitNext : Text.textLines text = (above ++ line :: between) ++ next :: below := by
      rw [split, List.append_assoc, List.cons_append]
    refine ⟨_, _, entry_at split fits, entry_at splitNext fitsNext, ?_⟩
    rw [← labels_eq_nil_iff, List.map_append, List.map_cons, LogLine.told_of_fits fits, behind_append, behind,
      behind_number, @behind_name (some _), Option.getD_some]
    dsimp only
    rw [← List.length_eq_zero_iff]
    refine ⟨by omega, fun equal => ?_⟩
    have none : LogLine.labels (between.map LogLine.told) = [] :=
      List.length_eq_zero_iff.mp (by omega)
    rw [none]
    rfl

namespace MixedLog

/-- A row of a report. -/
def row (depth : Nat) (label : String) (milliseconds : Int) : Row :=
  ⟨⟨depth, .method, label, ""⟩, milliseconds, "0:00:00"⟩

/-- A measured line above the first header, and a header that no measured line follows. -/
def above : List String :=
  [(row 0 "f" 7).text, headerText "go", "starting", headerText "run"]

/-- Two measured lines more, with other output in between. -/
def lines : List String :=
  above ++ (row 1 "g" (-2)).text :: (["done"] ++ [(row 0 "h" 30).text])

def text : String :=
  Text.withNewlines lines

def entries : List Entry :=
  [⟨(row 0 "f" 7).measurement, 0, ""⟩, ⟨(row 1 "g" (-2)).measurement, 2, "run"⟩,
    ⟨(row 0 "h" 30).measurement, 2, "run"⟩]

theorem legible_row (depth : Nat) (milliseconds : Int) {label : String}
    (unbroken : Text.Unbroken label) (bracket : ']' ∉ label.toList) :
    (row depth label milliseconds).Legible where
  label := unbroken
  bracket := bracket
  elapsed := (by decide : Text.Unbroken "0:00:00")
  trimmed := (by decide : Text.Trimmed "0:00:00")

theorem measured_row {depth : Nat} {label : String} {milliseconds : Int}
    (legible : (row depth label milliseconds).Legible) : IsMeasured (row depth label milliseconds).text :=
  ⟨_, LogLine.fits_measured legible.bracket milliseconds legible.trimmed⟩

theorem not_measured_header (entry : String) : ¬IsMeasured (headerText entry) := by
  rintro ⟨p, fits⟩
  have none := LogLine.header?_of_fits fits
  rw [header?_eq_some_iff.mpr (LogLine.heads_headerText entry)] at none
  cases none

theorem segmentation_mixed :
    readLog text = .ok entries ∧ entries.Pairwise (fun a b => a.report ≤ b.report) ∧
      (∃ e, entries[1]? = some e ∧ LastLabel above e.entry) ∧
      ∃ a b, entries[1]? = some a ∧ entries[2]? = some b ∧
        (a.report = b.report ↔ ∀ l ∈ ["done"], ¬IsHeader l) ∧ (a.report = b.report → a.entry = b.entry) := by
  have first : (row 0 "f" 7).Legible := legible_row 0 7 (by decide) (by decide)
  have second : (row 1 "g" (-2)).Legible := legible_row 1 (-2) (by decide) (by decide)
  have third : (row 0 "h" 30).Legible := legible_row 0 30 (by decide) (by decide)
  have few (n : Nat) (small : n < 10 ^ 2) : n < 10 ^ Number.digitLimit :=
    Nat.lt_of_lt_of_le small (Nat.pow_le_pow_right (by decide) (by decide))
  have starting : ¬IsHeader "starting" ∧ ¬IsMeasured "starting" := by decide
  have done : ¬IsHeader "done" ∧ ¬IsMeasured "done" := by decide
  have cut : Text.textLines text = lines := by
    refine Text.textLines_withNewlines ?_
    simp only [lines, above, List.cons_append, List.nil_append, List.forall_mem_cons]
    exact ⟨Row.unbroken_text first, by decide, by decide, by decide, Row.unbroken_text second, by decide,
      Row.unbroken_text third, by simp⟩
  have read : readLog text = .ok entries := by
    rw [readLog, cut, lines, above]
    simp only [List.cons_append, List.nil_append, List.mapM_cons, List.mapM_nil, LogLine.ofText_header,
      Sheet.ofText_text first (few _ (by decide)), Sheet.ofText_text second (few _ (by decide)),
      Sheet.ofText_text third (few _ (by decide)), LogLine.ofText_of_neither starting.1 starting.2,
      LogLine.ofText_of_neither done.1 done.2]
    rfl
  obtain ⟨-, whole, -⟩ := segmentation text
  obtain ⟨-, ordered, names, pairs⟩ := whole entries read
  have one : (above.filter (IsMeasured ·)).length = 1 := by
    simp [above, measured_row first, not_measured_header, starting.2]
  have two : ((above ++ (row 1 "g" (-2)).text :: ["done"]).filter (IsMeasured ·)).length = 2 := by
    simp [above, measured_row first, measured_row second, not_measured_header, starting.2, done.2]
  have named := names above _ _ cut (measured_row second)
  have paired := pairs above _ ["done"] _ [] cut (measured_row second) (measured_row third)
  rw [one] at named paired
  rw [two] at paired
  exact ⟨read, ordered, named, paired⟩

end MixedLog

namespace LongTime

/-- A single line can keep a log from being read. -/
theorem readLog_row : Text.textLines (row time).text = [(row time).text] ∧
    IsMeasured (row time).text ∧ ∀ entries, readLog (row time).text ≠ .ok entries := by
  have own := legible_row time
  have whole : (⟨"", [row time]⟩ : Sheet).Legible :=
    ⟨(by decide : Text.Unbroken ""), List.forall_mem_singleton.mpr own⟩
  obtain ⟨unbroken, some⟩ := Sheet.unbroken_lines whole (row time).text
    (List.mem_cons_of_mem _ List.mem_cons_self)
  have cut := Text.textLines_of_unbroken unbroken some
  refine ⟨cut, ⟨_, LogLine.fits_measured own.bracket time own.trimmed⟩, fun entries read => ?_⟩
  rw [readLog, cut, List.mapM_cons, ofText_row] at read
  cases read

end LongTime

end ProbeWeave.Report
