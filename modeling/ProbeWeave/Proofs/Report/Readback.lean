import Std.Data.String.ToNat
import ProbeWeave.Outcome
import ProbeWeave.Proofs.Report.LineForms

/-! # Reading back what a report prints

A report is a header and measured lines, which are joined by line breaks. A log of such reports is
cut into the same lines again, and every part of a line is found where it was written: the markers in
front of the first bracket, the label up to the first closing one, and the number up to its unit.
-/

namespace ProbeWeave.Text

/-- Whether a text contains no line break. -/
def Unbroken (s : String) : Prop :=
  ∀ c ∈ s.toList, isTextBreak c = false

-- Searching the text decides it; trying all characters would, too, but takes too long.
instance (s : String) : Decidable (Unbroken s) :=
  decidable_of_iff (s.toList.all (!isTextBreak ·) = true) (by simp [Unbroken])

/-! ### Cutting at newlines -/

section Cutting

variable {line : List Char} (unbroken : ∀ c ∈ line, isTextBreak c = false)
include unbroken

theorem cutLines_append_newline (rest : List Char) :
    cutLines isTextBreak (line ++ '\n' :: rest) = (line ++ ['\n']) :: cutLines isTextBreak rest := by
  induction line with
  | nil => rfl
  | cons c cs ih =>
    obtain ⟨plain, unbroken⟩ := List.forall_mem_cons.mp unbroken
    rw [List.cons_append, cutLines, plain, Bool.false_and, if_neg Bool.false_ne_true, ih unbroken]
    rfl

theorem cutLines_of_unbroken (some : line ≠ []) : cutLines isTextBreak line = [line] := by
  induction line with
  | nil => exact absurd rfl some
  | cons c cs ih =>
    obtain ⟨plain, unbroken⟩ := List.forall_mem_cons.mp unbroken
    rw [cutLines, plain, Bool.false_and, if_neg Bool.false_ne_true]
    cases cs with
    | nil => rfl
    | cons d ds => rw [ih unbroken (List.cons_ne_nil _ _)]

theorem dropBreak_newline : dropBreak isTextBreak (line ++ ['\n']) = line := by
  rcases List.eq_nil_or_concat' line with rfl | ⟨front, c, rfl⟩
  · rfl
  · -- A carriage return would be taken for part of the break.
    have other : c ≠ '\r' := by
      rintro rfl
      exact absurd (unbroken '\r' (by simp)) (by decide)
    rw [dropBreak]
    simp only [List.reverse_append, List.reverse_cons, List.reverse_nil, List.nil_append,
      List.cons_append]
    split
    · rename_i same
      injection same with _ same
      injection same with same
      exact absurd same other
    · rename_i same
      injection same with newline rest
      rw [← newline, if_pos (by decide), ← rest]
      simp
    · rename_i none
      cases none

theorem dropBreak_of_unbroken : dropBreak isTextBreak line = line := by
  rcases List.eq_nil_or_concat' line with rfl | ⟨front, c, rfl⟩
  · rfl
  · have plain : isTextBreak c = false := unbroken c (by simp)
    have other : c ≠ '\n' := by
      rintro rfl
      exact absurd plain (by decide)
    rw [dropBreak, List.reverse_concat]
    split
    · rename_i same
      injection same with same
      exact absurd same other
    · rename_i same
      injection same with same
      rw [← same, plain, if_neg Bool.false_ne_true]
    · rename_i none
      cases none

end Cutting

theorem textLines_append_newline {line : String} (unbroken : Unbroken line) (rest : String) :
    textLines (line ++ "\n" ++ rest) = line :: textLines rest := by
  have chars : (line ++ "\n" ++ rest).toList = line.toList ++ '\n' :: rest.toList := by simp
  rw [textLines, chars, cutLines_append_newline unbroken, List.map_cons, dropBreak_newline unbroken,
    String.ofList_toList]
  rfl

theorem textLines_of_unbroken {line : String} (unbroken : Unbroken line) (some : line ≠ "") :
    textLines line = [line] := by
  rw [textLines, cutLines_of_unbroken unbroken (by simpa using some), List.map_singleton,
    dropBreak_of_unbroken unbroken, String.ofList_toList]

/-- Lines, each with a newline behind it. -/
def withNewlines (lines : List String) : String :=
  String.join (lines.map (· ++ "\n"))

theorem withNewlines_cons (line : String) (lines : List String) :
    withNewlines (line :: lines) = line ++ "\n" ++ withNewlines lines := by
  rw [withNewlines, List.map_cons, String.join_cons]
  rfl

theorem withNewlines_append (lines others : List String) :
    withNewlines (lines ++ others) = withNewlines lines ++ withNewlines others := by
  rw [withNewlines, List.map_append, String.join_append]
  rfl

/-- Joining by newlines leaves out the last one. -/
theorem intercalate_newline {lines : List String} (some : lines ≠ []) :
    "\n".intercalate lines ++ "\n" = withNewlines lines := by
  induction lines with
  | nil => exact absurd rfl some
  | cons line rest ih =>
    cases rest with
    | nil => simp [withNewlines]
    | cons next others =>
      have later := ih (List.cons_ne_nil _ _)
      rw [withNewlines_cons, ← later, String.intercalate_cons_cons, String.append_assoc]

theorem textLines_withNewlines {lines : List String} (unbroken : ∀ line ∈ lines, Unbroken line) :
    textLines (withNewlines lines) = lines := by
  induction lines with
  | nil => rfl
  | cons line rest ih =>
    obtain ⟨first, others⟩ := List.forall_mem_cons.mp unbroken
    rw [withNewlines_cons, textLines_append_newline first, ih others]

theorem textLines_intercalate {lines : List String} (unbroken : ∀ line ∈ lines, Unbroken line)
    (some : ∀ line ∈ lines, line ≠ "") : textLines ("\n".intercalate lines) = lines := by
  induction lines with
  | nil => rfl
  | cons line rest ih =>
    obtain ⟨first, others⟩ := List.forall_mem_cons.mp unbroken
    obtain ⟨nonempty, inhabited⟩ := List.forall_mem_cons.mp some
    cases rest with
    | nil => rw [String.intercalate_singleton, textLines_of_unbroken first nonempty]
    | cons next later =>
      rw [String.intercalate_cons_cons, textLines_append_newline first, ih others inhabited]

/-! ### Digits -/

theorem digitValue?_of_isDigit {c : Char} (digit : c.isDigit = true) :
    digitValue? c = some (c.toNat - '0'.toNat) := by
  have small : c.val < 128 := by
    simp only [Char.isDigit, Bool.and_eq_true, decide_eq_true_eq] at digit
    exact UInt32.lt_of_le_of_lt digit.2 (by decide)
  rw [digitValue?, if_pos small, if_pos digit]

theorem isTextBreak_of_isDigit {c : Char} (digit : c.isDigit = true) : isTextBreak c = false := by
  simp only [Char.isDigit, Bool.and_eq_true, decide_eq_true_eq, UInt32.le_iff_toNat_le] at digit
  have bounds : 48 ≤ c.toNat ∧ c.toNat ≤ 57 := digit
  simp only [isTextBreak, Bool.or_eq_false_iff, Bool.and_eq_false_iff, decide_eq_false_iff_not,
    beq_eq_false_iff_ne]
  omega

end ProbeWeave.Text

namespace ProbeWeave.Number

-- Powers of numbers are those that are computed with, whatever other powers are known.
attribute [local instance (2000)] instPowNat

/-- The values of the decimal digits of a number. -/
def digitsOf (n : Nat) : List Nat :=
  (Nat.toDigits 10 n).map fun c => c.toNat - '0'.toNat

theorem ofDigits_digitsOf (n : Nat) : ofDigits (digitsOf n) = n := by
  rw [ofDigits, digitsOf, List.foldl_map]
  exact Nat.ofDigitChars_toDigits (by decide) (by decide)

theorem signed_natAbs (z : Int) : signed (decide (z < 0)) z.natAbs = z := by
  unfold signed
  split <;> rename_i sign <;> simp at sign <;> omega

end ProbeWeave.Number

namespace ProbeWeave.Report

-- Powers of numbers are those that are computed with, whatever other powers are known.
attribute [local instance (2000)] instPowNat

/-! ### The parts of a line -/

namespace LogLine

theorem unbroken_markers (depth : Nat) : Text.Unbroken (markers depth) := by
  induction depth with
  | zero => exact fun c member => absurd member List.not_mem_nil
  | succ n ih =>
    rw [Text.Unbroken, toList_markers_succ]
    exact List.forall_mem_cons.mpr ⟨by decide, List.forall_mem_cons.mpr ⟨by decide, ih⟩⟩

/-- The characters of a measured line behind its markers. -/
def measuredTail (line : Line) (milliseconds : Int) (elapsed : String) : List Char :=
  ("[" ++ line.kind.text ++ ": ").toList ++ (line.label.toList ++
    ("] Time: ".toList ++ ((toString milliseconds).toList ++ (" ms - ".toList ++ elapsed.toList))))

theorem exists_measuredTail (line : Line) (milliseconds : Int) (elapsed : String) :
    ∃ rest, measuredTail line milliseconds elapsed = '[' :: rest := by
  rw [measuredTail, String.toList_append, String.toList_append, List.append_assoc, List.append_assoc]
  exact ⟨_, rfl⟩

theorem toList_measured (line : Line) (milliseconds : Int) (elapsed : String) :
    (line.measured milliseconds elapsed).toList =
      (markers line.depth).toList ++ measuredTail line milliseconds elapsed := by
  rw [Line.measured, Line.lead, measuredTail]
  simp only [String.toList_append, List.append_assoc]

theorem toList_toString_int (z : Int) : (toString z).toList =
    (if z < 0 then ['-'] else []) ++ Nat.toDigits 10 z.natAbs := by
  have text : toString z = z.repr := rfl
  rw [text, Int.repr_eq_if]
  by_cases negative : z < 0
  · have size : (-z).toNat = z.natAbs := by omega
    rw [if_neg (by omega), if_pos negative, size, String.toList_append, Nat.toList_repr]
    rfl
  · have size : z.toNat = z.natAbs := by omega
    rw [if_pos (by omega), if_neg negative, size, Nat.toList_repr]
    rfl

theorem digitValues_toDigits (n : Nat) :
    (Nat.toDigits 10 n).filterMap Text.digitValue? = Number.digitsOf n := by
  rw [Number.digitsOf, ← List.filterMap_eq_map]
  refine List.filterMap_congr fun c member => ?_
  exact Text.digitValue?_of_isDigit (Nat.isDigit_of_mem_toDigits (by decide) (by decide) member)

/-- The parts of a line that is printed. -/
def partsOf (line : Line) (milliseconds : Int) (elapsed : String) : Parts :=
  ⟨line.depth, line.kind, line.label, decide (milliseconds < 0), Nat.toDigits 10 milliseconds.natAbs,
    elapsed⟩

theorem measurement_partsOf (line : Line) (milliseconds : Int) (elapsed : String) :
    (partsOf line milliseconds elapsed).measurement =
      ⟨line.depth, line.kind, line.label, milliseconds, elapsed⟩ := by
  have values : (partsOf line milliseconds elapsed).values = Number.digitsOf milliseconds.natAbs :=
    digitValues_toDigits _
  rw [Parts.measurement, values, Number.ofDigits_digitsOf, partsOf, Number.signed_natAbs]

theorem fits_measured {line : Line} (label : ']' ∉ line.label.toList) (milliseconds : Int)
    {elapsed : String} (trimmed : Text.Trimmed elapsed) :
    (partsOf line milliseconds elapsed).Fits (line.measured milliseconds elapsed) where
  label := label
  nonempty := Nat.toDigits_ne_nil
  digits c member := by
    have digit : c.isDigit = true := Nat.isDigit_of_mem_toDigits (by decide) (by decide) member
    rw [Text.isDigit, Text.digitValue?_of_isDigit digit]
    rfl
  trimmed := trimmed
  text := by
    refine ⟨[], by simp, ?_⟩
    rw [toList_measured, measuredTail, toList_toString_int, List.append_nil, List.append_assoc, partsOf,
      Parts.sign]
    simp only [decide_eq_true_eq]

/-- A measured line is read as what it says, unless its number has too many digits. -/
theorem ofText_measured {line : Line} (label : ']' ∉ line.label.toList) (milliseconds : Int)
    {elapsed : String} (trimmed : Text.Trimmed elapsed) :
    ofText (line.measured milliseconds elapsed) =
      if milliseconds.natAbs < 10 ^ Number.digitLimit then
        .ok (.measured ⟨line.depth, line.kind, line.label, milliseconds, elapsed⟩)
      else .error (.tooLong (Nat.toDigits 10 milliseconds.natAbs).length) := by
  have bound := Nat.length_toDigits_le_iff (b := 10) (n := milliseconds.natAbs) (k := Number.digitLimit)
    (by decide) (by decide)
  rw [ofText_of_fits (fits_measured label milliseconds trimmed), measurement_partsOf]
  exact if_congr bound rfl rfl

theorem toList_headerText (entry : String) :
    (headerText entry).toList = "[Inside method: ".toList ++ (entry.toList ++ [']']) := by
  change ("[Inside method: " ++ entry ++ "]").toList = _
  simp

theorem heads_headerText (entry : String) : Heads (headerText entry) entry :=
  ⟨[], by simp, toList_headerText entry⟩

theorem ofText_header (entry : String) : ofText (headerText entry) = .ok (.header entry) :=
  ofText_of_heads (heads_headerText entry)

end LogLine

/-! ### Logs of reports -/

/-- A line with what was measured. -/
structure Row where
  line : Line
  milliseconds : Int
  elapsed : String
  deriving DecidableEq, Repr

namespace Row

/-- The row as it is printed. -/
def text (row : Row) : String :=
  row.line.measured row.milliseconds row.elapsed

/-- What the row says. -/
def measurement (row : Row) : Measurement :=
  ⟨row.line.depth, row.line.kind, row.line.label, row.milliseconds, row.elapsed⟩

/-- Whether the texts of a row end where they are taken to end: no bracket closes within the label,
there is no line break, and no blank at the end. -/
structure Legible (row : Row) : Prop where
  label : Text.Unbroken row.line.label
  bracket : ']' ∉ row.line.label.toList
  elapsed : Text.Unbroken row.elapsed
  trimmed : Text.Trimmed row.elapsed

instance (row : Row) : Decidable row.Legible :=
  decidable_of_iff (Text.Unbroken row.line.label ∧ ']' ∉ row.line.label.toList ∧
      Text.Unbroken row.elapsed ∧ Text.Trimmed row.elapsed)
    ⟨fun ⟨label, bracket, elapsed, trimmed⟩ => ⟨label, bracket, elapsed, trimmed⟩,
      fun ⟨label, bracket, elapsed, trimmed⟩ => ⟨label, bracket, elapsed, trimmed⟩⟩

/-- Whether the time has few enough digits to be written and read. -/
def Short (row : Row) : Prop :=
  row.milliseconds.natAbs < 10 ^ Number.digitLimit

theorem unbroken_text {row : Row} (legible : row.Legible) : Text.Unbroken row.text := by
  intro c member
  rw [text, LogLine.toList_measured, LogLine.measuredTail, LogLine.toList_toString_int] at member
  simp only [List.mem_append] at member
  rcases member with marker | kind | label | time | (sign | digit) | unit | elapsed
  · exact LogLine.unbroken_markers row.line.depth c marker
  · have all : Text.Unbroken ("[" ++ row.line.kind.text ++ ": ") := by
      cases row.line.kind <;> decide
    exact all c kind
  · exact legible.label c label
  · have all : Text.Unbroken "] Time: " := by decide
    exact all c time
  · split at sign
    · obtain rfl := List.mem_singleton.mp sign
      decide
    · cases sign
  · exact Text.isTextBreak_of_isDigit
      (Nat.isDigit_of_mem_toDigits (by decide) (by decide) digit)
  · have all : Text.Unbroken " ms - " := by decide
    exact all c unit
  · exact legible.elapsed c elapsed

end Row

/-- A report that was printed. -/
structure Sheet where
  entry : String
  rows : List Row
  deriving DecidableEq, Repr

namespace Sheet

/-- The lines of the report. -/
def lines (sheet : Sheet) : List String :=
  headerText sheet.entry :: sheet.rows.map Row.text

/-- The lines joined. -/
def text (sheet : Sheet) : String :=
  "\n".intercalate sheet.lines

/-- What the lines say. -/
def logLines (sheet : Sheet) : List LogLine :=
  .header sheet.entry :: sheet.rows.map fun row => .measured row.measurement

/-- What is read from the report if it has a number. -/
def entries (sheet : Sheet) (number : Nat) : List Entry :=
  sheet.rows.map fun row => { row.measurement with report := number, entry := sheet.entry }

/-- Whether the parts of the report can be told apart. -/
structure Legible (sheet : Sheet) : Prop where
  entry : Text.Unbroken sheet.entry
  rows : ∀ row ∈ sheet.rows, row.Legible

instance (sheet : Sheet) : Decidable sheet.Legible :=
  decidable_of_iff (Text.Unbroken sheet.entry ∧ ∀ row ∈ sheet.rows, row.Legible)
    ⟨fun ⟨entry, rows⟩ => ⟨entry, rows⟩, fun ⟨entry, rows⟩ => ⟨entry, rows⟩⟩

theorem unbroken_lines {sheet : Sheet} (legible : sheet.Legible) :
    ∀ line ∈ sheet.lines, Text.Unbroken line ∧ line ≠ "" := by
  refine List.forall_mem_cons.mpr ⟨⟨?_, ?_⟩, List.forall_mem_map.mpr fun row member => ⟨?_, ?_⟩⟩
  · intro c member
    rw [LogLine.toList_headerText, List.mem_append, List.mem_append, List.mem_singleton] at member
    have all : Text.Unbroken "[Inside method: " := by decide
    rcases member with front | label | rfl
    · exact all c front
    · exact legible.entry c label
    · decide
  · intro none
    have chars := LogLine.toList_headerText sheet.entry
    rw [none] at chars
    cases chars
  · exact Row.unbroken_text (legible.rows row member)
  · intro none
    have chars := LogLine.toList_measured row.line row.milliseconds row.elapsed
    obtain ⟨rest, bracket⟩ := LogLine.exists_measuredTail row.line row.milliseconds row.elapsed
    rw [← Row.text, none, bracket] at chars
    simp at chars

theorem ofText_text {row : Row} (legible : row.Legible) (short : row.Short) :
    LogLine.ofText row.text = .ok (.measured row.measurement) := by
  have few : row.milliseconds.natAbs < 10 ^ Number.digitLimit := short
  have read := LogLine.ofText_measured legible.bracket row.milliseconds legible.trimmed
  rw [if_pos few] at read
  exact read

theorem map_ofText_lines {sheet : Sheet} (legible : sheet.Legible)
    (short : ∀ row ∈ sheet.rows, row.Short) :
    sheet.lines.map LogLine.ofText = sheet.logLines.map Except.ok := by
  have rows : ∀ row ∈ sheet.rows, (LogLine.ofText ∘ Row.text) row =
      (Except.ok ∘ fun row : Row => LogLine.measured row.measurement) row := fun row member => by
    rw [Function.comp_apply, Function.comp_apply, ofText_text (legible.rows row member) (short row member)]
  rw [lines, logLines, List.map_cons, List.map_cons, List.map_map, List.map_map,
    LogLine.ofText_header, List.map_congr_left rows]

/-- A header begins the next report, and the lines behind it are numbered alike. -/
theorem entriesFrom_logLines (sheet : Sheet) (report : Option Nat) (entry : String)
    (rest : List LogLine) :
    entriesFrom report entry (sheet.logLines ++ rest) =
      sheet.entries (nextReport report) ++ entriesFrom (some (nextReport report)) sheet.entry rest := by
  rw [logLines, entries, List.cons_append, entriesFrom]
  generalize nextReport report = number
  induction sheet.rows with
  | nil => rfl
  | cons row rows ih =>
    rw [List.map_cons, List.cons_append, entriesFrom, Option.getD_some]
    dsimp only
    rw [ih]
    rfl

end Sheet

/-- What is read from reports, which are numbered in their order. -/
def entriesOf (first : Nat) (sheets : List Sheet) : List Entry :=
  (sheets.zipIdx first).flatMap fun x => x.1.entries x.2

theorem entriesFrom_sheets (sheets : List Sheet) (report : Option Nat) (entry : String) :
    entriesFrom report entry (sheets.flatMap Sheet.logLines) =
      entriesOf (nextReport report) sheets := by
  induction sheets generalizing report entry with
  | nil => rfl
  | cons sheet rest ih =>
    rw [List.flatMap_cons, Sheet.entriesFrom_logLines, ih]
    rfl

/-- A text that is cut into the lines of reports is read as those reports. -/
theorem readLog_of_textLines {sheets : List Sheet} {log : String}
    (cut : Text.textLines log = sheets.flatMap Sheet.lines) (legible : ∀ s ∈ sheets, s.Legible)
    (short : ∀ s ∈ sheets, ∀ row ∈ s.rows, row.Short) :
    readLog log = .ok (entriesOf 0 sheets) := by
  have lines : (Text.textLines log).mapM LogLine.ofText = .ok (sheets.flatMap Sheet.logLines) := by
    rw [cut, Outcome.mapM_eq_ok, List.map_flatMap, List.map_flatMap]
    exact List.flatMap_congr fun s member => s.map_ofText_lines (legible s member) (short s member)
  rw [readLog, lines]
  exact congrArg Except.ok (entriesFrom_sheets sheets none "")

/-- Reports of which each is followed by a newline. -/
theorem newlines_sheets (sheets : List Sheet) :
    Text.withNewlines (sheets.map Sheet.text) = Text.withNewlines (sheets.flatMap Sheet.lines) := by
  induction sheets with
  | nil => rfl
  | cons sheet rest ih =>
    have own : sheet.text ++ "\n" = Text.withNewlines sheet.lines :=
      Text.intercalate_newline (List.cons_ne_nil _ _)
    rw [List.map_cons, List.flatMap_cons, Text.withNewlines_cons, Text.withNewlines_append, ih, own]

theorem intercalate_sheets (sheets : List Sheet) :
    "\n".intercalate (sheets.map Sheet.text) = "\n".intercalate (sheets.flatMap Sheet.lines) := by
  cases sheets with
  | nil => rfl
  | cons sheet rest =>
    have same := newlines_sheets (sheet :: rest)
    rw [← Text.intercalate_newline (by simp), ← Text.intercalate_newline (by simp [Sheet.lines])] at same
    exact String.append_left_inj _ |>.mp same

/-- A log of reports is read as the reports, with or without a newline at its end. -/
theorem readLog_sheets {sheets : List Sheet} (legible : ∀ s ∈ sheets, s.Legible)
    (short : ∀ s ∈ sheets, ∀ row ∈ s.rows, row.Short) :
    readLog (Text.withNewlines (sheets.map Sheet.text)) = .ok (entriesOf 0 sheets) ∧
      readLog ("\n".intercalate (sheets.map Sheet.text)) = .ok (entriesOf 0 sheets) := by
  have clear : ∀ line ∈ sheets.flatMap Sheet.lines, Text.Unbroken line ∧ line ≠ "" := fun line member => by
    obtain ⟨s, inSheets, member⟩ := List.mem_flatMap.mp member
    exact Sheet.unbroken_lines (legible s inSheets) line member
  have unbroken := fun line member => (clear line member).1
  refine ⟨readLog_of_textLines ?_ legible short, readLog_of_textLines ?_ legible short⟩
  · rw [newlines_sheets, Text.textLines_withNewlines unbroken]
  · rw [intercalate_sheets, Text.textLines_intercalate unbroken fun line member => (clear line member).2]

/-! ### A time that is too long -/

namespace LongTime

/-- A line with a time. -/
def row (milliseconds : Int) : Row :=
  ⟨⟨0, .method, "f", "probe1_f"⟩, milliseconds, "0:00:00"⟩

/-- The smallest time with more digits than can be read. -/
def time : Nat :=
  10 ^ Number.digitLimit

theorem length_time : (Nat.toDigits 10 time).length = Number.digitLimit + 1 := by
  have above := Nat.length_toDigits_le_iff (b := 10) (n := time) (k := Number.digitLimit)
    (by decide) (by decide)
  have within := Nat.length_toDigits_le_iff (b := 10) (n := time) (k := Number.digitLimit + 1)
    (by decide) (by decide)
  have larger : time < 10 ^ (Number.digitLimit + 1) :=
    Nat.pow_lt_pow_right (by decide) (Nat.lt_succ_self _)
  have most := within.mpr larger
  have least : ¬(Nat.toDigits 10 time).length ≤ Number.digitLimit := fun few =>
    Nat.lt_irrefl _ (above.mp few)
  omega

theorem legible_row (milliseconds : Int) : (row milliseconds).Legible where
  label := (by decide : Text.Unbroken "f")
  bracket := (by decide : ']' ∉ "f".toList)
  elapsed := (by decide : Text.Unbroken "0:00:00")
  trimmed := (by decide : Text.Trimmed "0:00:00")

theorem ofText_row :
    LogLine.ofText (row time).text = .error (.tooLong (Number.digitLimit + 1)) := by
  have own := legible_row time
  have large : ¬time < 10 ^ Number.digitLimit := Nat.lt_irrefl _
  have read := LogLine.ofText_measured own.bracket time own.trimmed
  rw [Int.natAbs_natCast, if_neg large, length_time] at read
  exact read

end LongTime

end ProbeWeave.Report
