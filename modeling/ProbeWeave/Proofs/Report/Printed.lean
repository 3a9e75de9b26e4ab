import ProbeWeave.Proofs.Report.Readback
import ProbeWeave.Proofs.Weaving.BoundOnce

/-! # What the statements of a report print

The block that reports the times collects texts in a list, prints them joined by newlines and appends
them to a file. Running it on what the probes show gives the header and the measured lines of the
report, and a log of such reports is read as what they say.
-/

namespace ProbeWeave.Weaving

open Syntax

theorem dottedName?_dottedExpr (dotted : String) : (dottedExpr dotted).dottedName? = some dotted := by
  have split : ".".intercalate ((dotted.toList.splitOn '.').map String.ofList) = dotted := by
    have chars : String.toList ∘ String.ofList = id := by
      funext cs
      exact String.toList_ofList
    rw [← String.toList_inj, String.toList_intercalate, List.map_map, chars, List.map_id]
    exact List.intercalate_splitOn '.'
  obtain ⟨first, rest, parts⟩ : ∃ first rest,
      (dotted.toList.splitOn '.').map String.ofList = first :: rest :=
    List.exists_cons_of_ne_nil (by simp)
  rw [parts] at split
  rw [dottedExpr, parts, memberChain, Expr.dottedName?, dottedParts?_foldl rest rfl, Option.map_some]
  exact congrArg some split

end ProbeWeave.Weaving

namespace ProbeWeave.Report

-- Powers of numbers are those that are computed with, whatever other powers are known.
attribute [local instance (2000)] instPowNat

open Syntax Weaving

/-- What a probe shows: its milliseconds, and the duration as it is written. -/
structure Reading where
  milliseconds : Int
  elapsed : String

/-- What the statements of a report work on: the lists of texts that variables hold, what was printed,
and what files contain. -/
structure Console where
  lists : String → Option (List String)
  printed : String
  files : String → String

namespace Console

/-- Binds a variable to a list, or to something else than a list. -/
def bind (console : Console) (id : String) (texts : Option (List String)) : Console :=
  { console with lists := fun other => if other = id then texts else console.lists other }

/-- Prints a text and a newline. -/
def print (console : Console) (text : String) : Console :=
  { console with printed := console.printed ++ text ++ "\n" }

/-- Writes a text behind what a file contains. -/
def append (console : Console) (path text : String) : Console :=
  { console with
    files := fun other => if other = path then console.files path ++ text else console.files other }

theorem append_files_self (console : Console) (path text : String) :
    (console.append path text).files path = console.files path ++ text :=
  if_pos rfl

theorem append_files_of_ne (console : Console) {path other : String} (apart : other ≠ path)
    (text : String) : (console.append path text).files other = console.files other :=
  if_neg apart

theorem bind_lists (console : Console) (id : String) (texts : Option (List String)) :
    (console.bind id texts).lists id = texts :=
  if_pos rfl

theorem bind_lists_of_ne (console : Console) {id other : String} (apart : other ≠ id)
    (texts : Option (List String)) : (console.bind id texts).lists other = console.lists other :=
  if_neg apart

theorem bind_bind (console : Console) (id : String) (texts others : Option (List String)) :
    (console.bind id texts).bind id others = console.bind id others := by
  simp only [bind]
  congr 1
  funext other
  split <;> rfl

end Console

/-! ### Texts -/

/-- The text of code points, if each is that of a character. -/
def textOfPoints? (points : List Nat) : Option String :=
  let text := String.ofList (points.map Char.ofNat)
  if Text.points text = points then some text else none

theorem textOfPoints?_points (s : String) : textOfPoints? (Text.points s) = some s := by
  have chars : (Text.points s).map Char.ofNat = s.toList := by
    rw [Text.points, List.map_map]
    exact (List.map_congr_left fun c _ => Char.ofNat_toNat c).trans (List.map_id _)
  rw [textOfPoints?, chars, String.ofList_toList]
  exact if_pos rfl

section Run

variable (readings : String → Reading)

/-- What a member of a probe is written as; a number may have too many digits for that. -/
def memberText? : Expr → Option String
  | .member probe "elapsed_ms" => do
    let reading := readings (← probe.dottedName?)
    if reading.milliseconds.natAbs < 10 ^ Number.digitLimit then some (toString reading.milliseconds)
    else none
  | .member probe "elapsed" => do
    return (readings (← probe.dottedName?)).elapsed
  | _ => none

/-- The text of a part of a formatted text. -/
def partText? : Expr → Option String
  | .constant (.text points _) => textOfPoints? points
  | .formatted value none none => memberText? readings value
  | _ => none

/-- The text that an expression gives. -/
def text? (lists : String → Option (List String)) : Expr → Option String
  | .constant (.text points _) => textOfPoints? points
  | .joined parts => do
    return String.join (← parts.mapM (partText? readings))
  | .call _ (.member separator "join") [.name id .load] [] => do
    return (← text? lists separator).intercalate (← lists id)
  | .binary left .add right => do
    return (← text? lists left) ++ (← text? lists right)
  | _ => none

/-- Runs a statement. A name that is bound to a list is neither `print` nor `open` any more. -/
def step? (console : Console) : Stmt → Option Console
  | .assign _ [.name id .store] (.list elements) => do
    return console.bind id (some (← elements.mapM (text? readings console.lists)))
  | .expression _ (.call _ (.member (.name id .load) "append") [value] []) => do
    let texts ← console.lists id
    return console.bind id (some (texts ++ [← text? readings console.lists value]))
  | .expression _ (.call _ (.name "print" .load) [value] []) => do
    guard (console.lists "print" = none)
    return console.print (← text? readings console.lists value)
  | .withBlock _ false
      [⟨.call _ (.name "open" .load) [file, mode] [.mk (some "encoding") _], some (.name handle .store)⟩]
      [.expression _ (.call _ (.member (.name target .load) "write") [value] [])] => do
    guard (console.lists "open" = none ∧ target = handle)
    let path ← text? readings console.lists file
    guard (text? readings console.lists mode = some "a")
    let written ← text? readings (console.bind handle none).lists value
    return (console.bind handle none).append path written
  | _ => none

/-- Runs statements one after the other. -/
def run? (console : Console) (block : List Stmt) : Option Console :=
  block.foldlM (step? readings) console

/-! ### The report -/

/-- The line with what its probe shows. -/
def rowOf (line : Line) : Row :=
  ⟨line, (readings line.probe).milliseconds, (readings line.probe).elapsed⟩

/-- The lines below their header, with what the probes show. -/
def sheetOf (entry : String) (lines : List Line) : Sheet :=
  ⟨entry, lines.map (rowOf readings)⟩

variable {readings}

/-- The formatted text of a line gives the line with what its probe shows. -/
theorem text?_measuredLine {line : Line} (short : (rowOf readings line).Short)
    (lists : String → Option (List String)) :
    text? readings lists (measuredLine line) = some (rowOf readings line).text := by
  have few : (readings line.probe).milliseconds.natAbs < 10 ^ Number.digitLimit := short
  have time : partText? readings (.formatted (.member (dottedExpr line.probe) "elapsed_ms") none none) =
      some (toString (readings line.probe).milliseconds) := by
    rw [partText?, memberText?, dottedName?_dottedExpr, Option.bind_eq_bind, Option.bind_some,
      if_pos few]
  have duration : partText? readings (.formatted (.member (dottedExpr line.probe) "elapsed") none none) =
      some (readings line.probe).elapsed := by
    rw [partText?, memberText?, dottedName?_dottedExpr]
    rfl
  have fixed (s : String) : partText? readings (textLiteral s) = some s := textOfPoints?_points s
  rw [measuredLine, text?, List.mapM_cons, List.mapM_cons, List.mapM_cons, List.mapM_cons, fixed, fixed,
    time, duration]
  simp [Row.text, rowOf, Line.measured, String.join_cons, String.append_assoc]

variable {collector : String}

/-- Each line is appended to the collected ones. -/
theorem run?_appends {lines : List Line} (short : ∀ line ∈ lines, (rowOf readings line).Short)
    (console : Console) (front : List String) :
    run? readings (console.bind collector (some front)) (lines.map fun line =>
        .expression .nowhere (methodCall (loaded collector) "append" [measuredLine line])) =
      some (console.bind collector
        (some (front ++ lines.map fun line => (rowOf readings line).text))) := by
  induction lines generalizing front with
  | nil => simp [run?]
  | cons line rest ih =>
    obtain ⟨first, others⟩ := List.forall_mem_cons.mp short
    have step : step? readings (console.bind collector (some front))
        (.expression .nowhere (methodCall (loaded collector) "append" [measuredLine line])) =
        some (console.bind collector (some (front ++ [(rowOf readings line).text]))) := by
      rw [methodCall, callOf, loaded, step?, Console.bind_lists, Option.bind_eq_bind,
        Option.bind_some, text?_measuredLine first]
      exact congrArg some (console.bind_bind collector _ _)
    rw [run?, List.map_cons, List.foldlM_cons, step, Option.bind_eq_bind, Option.bind_some, ← run?,
      ih others]
    simp

/-- The statements that collect the lines of a report. -/
def collecting (entry : String) (lines : List Line) (collector : String) : List Stmt :=
  bindName collector (.list [textLiteral (headerText entry)]) ::
    lines.map fun line =>
      .expression .nowhere (methodCall (loaded collector) "append" [measuredLine line])

theorem run?_collecting {lines : List Line} (short : ∀ line ∈ lines, (rowOf readings line).Short)
    (entry : String) (console : Console) :
    run? readings console (collecting entry lines collector) =
      some (console.bind collector (some (sheetOf readings entry lines).lines)) := by
  have bound : step? readings console (bindName collector (.list [textLiteral (headerText entry)])) =
      some (console.bind collector (some [headerText entry])) := by
    have fixed : text? readings console.lists (textLiteral (headerText entry)) =
        some (headerText entry) := textOfPoints?_points _
    rw [bindName, step?, List.mapM_cons, fixed]
    rfl
  rw [collecting, run?, List.foldlM_cons, bound, Option.bind_eq_bind, Option.bind_some, ← run?,
    run?_appends short, Sheet.lines, sheetOf, List.map_map]
  rfl

/-- The collected lines are joined by newlines. -/
theorem text?_joinedLines {lists : String → Option (List String)} {texts : List String}
    (collected : lists collector = some texts) :
    text? readings lists (joinedLines collector) = some ("\n".intercalate texts) := by
  have newline : text? readings lists (textLiteral "\n") = some "\n" := textOfPoints?_points _
  rw [joinedLines, methodCall, callOf, loaded, text?, newline, collected]
  rfl

theorem step?_print {console : Console} (builtin : console.lists "print" = none) {texts : List String}
    (collected : console.lists collector = some texts) :
    step? readings console
        (.expression .nowhere (callOf (loaded "print") [joinedLines collector] [])) =
      some (console.print ("\n".intercalate texts)) := by
  rw [callOf, loaded, step?, text?_joinedLines collected, builtin]
  rfl

theorem step?_reportAppend {console : Console} (builtin : console.lists "open" = none)
    (apart : collector ≠ reportHandle) {texts : List String}
    (collected : console.lists collector = some texts) (file : String) :
    step? readings console (reportAppend collector file) =
      some ((console.bind reportHandle none).append file ("\n".intercalate texts ++ "\n")) := by
  have fixed (lists : String → Option (List String)) (s : String) :
      text? readings lists (textLiteral s) = some s := textOfPoints?_points s
  have kept : (console.bind reportHandle none).lists collector = some texts :=
    (console.bind_lists_of_ne apart none).trans collected
  have written : text? readings (console.bind reportHandle none).lists
      (.binary (joinedLines collector) .add (textLiteral "\n")) =
      some ("\n".intercalate texts ++ "\n") := by
    rw [text?, text?_joinedLines kept, fixed]
    rfl
  rw [reportAppend, methodCall, callOf, callOf, loaded, loaded, step?, fixed, fixed, written, builtin]
  simp [guard]

/-- The statements that show what is collected. -/
def showing (collector : String) (file : Option String) : List Stmt :=
  .expression .nowhere (callOf (loaded "print") [joinedLines collector] []) ::
    match file with
    | some file => if file.isEmpty then [] else [reportAppend collector file]
    | none => []

/-- The report is collected, printed and, if there is a file, appended to it. -/
theorem reportBlock_eq (entry : String) (lines : List Line) (collector : String)
    (file : Option String) :
    reportBlock entry lines collector file =
      collecting entry lines collector ++ showing collector file :=
  rfl

/-- The collected lines are printed, and appended to the file if one is named. -/
theorem run?_showing {console : Console} {texts : List String}
    (collected : console.lists collector = some texts) (notHandle : collector ≠ reportHandle)
    (builtin : console.lists "print" = none ∧ console.lists "open" = none) (file : Option String) :
    ∃ after, run? readings console (showing collector file) = some after ∧
      after.printed = console.printed ++ "\n".intercalate texts ++ "\n" ∧
      after.files = fun path =>
        if file = some path ∧ path ≠ "" then
          console.files path ++ ("\n".intercalate texts ++ "\n")
        else console.files path := by
  unfold showing
  rw [run?, List.foldlM_cons, step?_print builtin.1 collected, Option.bind_eq_bind,
    Option.bind_some]
  cases file with
  | none => exact ⟨_, rfl, rfl, by simp [Console.print]⟩
  | some path =>
    dsimp only
    by_cases empty : path = ""
    · rw [if_pos (by simp [empty])]
      refine ⟨_, rfl, rfl, ?_⟩
      funext other
      rw [if_neg fun named => named.2 (Option.some.inj named.1 ▸ empty)]
      rfl
    · have held : (console.print ("\n".intercalate texts)).lists collector = some texts := collected
      have opens : (console.print ("\n".intercalate texts)).lists "open" = none := builtin.2
      rw [if_neg (by simpa using empty), List.foldlM_cons, step?_reportAppend opens notHandle held]
      refine ⟨_, rfl, rfl, ?_⟩
      funext other
      by_cases same : other = path
      · rw [if_pos ⟨congrArg some same.symm, same ▸ empty⟩, same]
        exact Console.append_files_self _ path _
      · rw [if_neg fun named => same (Option.some.inj named.1).symm]
        exact Console.append_files_of_ne _ same _

/-- The whole block prints the report, and appends it to the file if one is named. -/
theorem run?_reportBlock {lines : List Line} (short : ∀ line ∈ lines, (rowOf readings line).Short)
    (entry : String) (file : Option String) {console : Console}
    (apart : collector ∉ ["print", "open", reportHandle])
    (builtin : console.lists "print" = none ∧ console.lists "open" = none) :
    ∃ after, run? readings console (reportBlock entry lines collector file) = some after ∧
      after.printed = console.printed ++ (sheetOf readings entry lines).text ++ "\n" ∧
      after.files = fun path =>
        if file = some path ∧ path ≠ "" then
          console.files path ++ ((sheetOf readings entry lines).text ++ "\n")
        else console.files path := by
  simp only [List.mem_cons, List.not_mem_nil, or_false, not_or] at apart
  obtain ⟨notPrint, notOpen, notHandle⟩ := apart
  rw [reportBlock_eq, run?, List.foldlM_append, ← run?, run?_collecting short, Option.bind_eq_bind,
    Option.bind_some, ← run?, Sheet.text]
  exact run?_showing (console.bind_lists collector _) notHandle
    ⟨(console.bind_lists_of_ne (Ne.symm notPrint) _).trans builtin.1,
      (console.bind_lists_of_ne (Ne.symm notOpen) _).trans builtin.2⟩ file

end Run

/-- What the block of a report prints is read as what the probes showed.

The lines that the block collects, joined by newlines, are the header and the measured lines; the block
prints them and appends them to the file, if the names it uses still mean what they should. A log of
any reports, with a newline behind each or between them, is read as their rows in their order, with
the label of the header and the place of the report. Times have no more digits than numbers may be
written with. -/
theorem report_round_trip :
    (∀ (readings : String → Reading) (entry : String) (lines : List Line) (collector : String)
        (file : Option String) (console : Console),
      (∀ line ∈ lines, (readings line.probe).milliseconds.natAbs < 10 ^ Number.digitLimit) →
      (sheetOf readings entry lines).text =
        "\n".intercalate (headerText entry :: lines.map fun line =>
          line.measured (readings line.probe).milliseconds (readings line.probe).elapsed) ∧
      (∃ collected,
        run? readings console ((reportBlock entry lines collector file).take (lines.length + 1)) =
          some collected ∧
        text? readings collected.lists (joinedLines collector) =
          some (sheetOf readings entry lines).text) ∧
      (collector ∉ ["print", "open", reportHandle] →
        console.lists "print" = none ∧ console.lists "open" = none →
        ∃ after, run? readings console (reportBlock entry lines collector file) = some after ∧
          after.printed = console.printed ++ (sheetOf readings entry lines).text ++ "\n" ∧
          after.files = fun path =>
            if file = some path ∧ path ≠ "" then
              console.files path ++ ((sheetOf readings entry lines).text ++ "\n")
            else console.files path)) ∧
    ∀ sheets : List Sheet, (∀ s ∈ sheets, s.Legible) → (∀ s ∈ sheets, ∀ row ∈ s.rows, row.Short) →
      readLog (Text.withNewlines (sheets.map Sheet.text)) = .ok (entriesOf 0 sheets) ∧
        readLog ("\n".intercalate (sheets.map Sheet.text)) = .ok (entriesOf 0 sheets) := by
  refine ⟨fun readings entry lines collector file console short => ⟨?_, ?_, ?_⟩,
    fun sheets legible short => readLog_sheets legible short⟩
  · rw [Sheet.text, Sheet.lines, sheetOf, List.map_map]
    rfl
  · have front : (reportBlock entry lines collector file).take (lines.length + 1) =
        collecting entry lines collector := by
      rw [reportBlock_eq]
      exact List.take_left' (by simp [collecting])
    rw [front, Sheet.text]
    exact ⟨_, run?_collecting short entry console, text?_joinedLines (console.bind_lists _ _)⟩
  · exact fun apart builtin => run?_reportBlock short entry file apart builtin

namespace TwoRuns

/-- Two reports: a header with brackets and three lines, and a header alone. -/
def sheets : List Sheet :=
  [⟨"run [fast]", [⟨⟨1, .method, "Parser.read", "probe1_read"⟩, 12, "0:00:00.012000"⟩,
      ⟨⟨2, .loop, "loop1_read", "loop1_read"⟩, -3, "-1 day, 23:59:59.997000"⟩]⟩,
    ⟨"run", []⟩]

/-- What the probes of the first report show. -/
def readings (probe : String) : Reading :=
  if probe = "probe1_read" then ⟨12, "0:00:00.012000"⟩ else ⟨-3, "-1 day, 23:59:59.997000"⟩

theorem report_round_trip_two :
    (∃ collected, run? readings ⟨fun _ => none, "", fun _ => ""⟩
        ((reportBlock "run" [⟨1, .method, "Parser.read", "probe1_read"⟩] "report" none).take 2) =
          some collected ∧
        text? readings collected.lists (joinedLines "report") =
          some "[Inside method: run]\n| [Method: Parser.read] Time: 12 ms - 0:00:00.012000") ∧
      readLog (Text.withNewlines (sheets.map Sheet.text)) =
        .ok [⟨⟨1, .method, "Parser.read", 12, "0:00:00.012000"⟩, 0, "run [fast]"⟩,
          ⟨⟨2, .loop, "loop1_read", -3, "-1 day, 23:59:59.997000"⟩, 0, "run [fast]"⟩] := by
  have few (n : Nat) (small : n < 10 ^ 2) : n < 10 ^ Number.digitLimit :=
    Nat.lt_of_lt_of_le small (Nat.pow_le_pow_right (by decide) (by decide))
  have legible : ∀ s ∈ sheets, s.Legible := by decide
  have short : ∀ s ∈ sheets, ∀ row ∈ s.rows, row.Short := fun s member row inRows =>
    few _ ((by decide : ∀ s ∈ sheets, ∀ row ∈ s.rows, row.milliseconds.natAbs < 10 ^ 2) s member row inRows)
  have block := (report_round_trip.1 readings "run" [⟨1, .method, "Parser.read", "probe1_read"⟩]
    "report" none ⟨fun _ => none, "", fun _ => ""⟩ (by
      simp only [List.mem_singleton, forall_eq]
      exact few _ (by decide))).2.1
  exact ⟨block, (report_round_trip.2 sheets legible short).1⟩

end TwoRuns

namespace LongTime

/-- Where a time has too many digits, the log is not read at all. -/
theorem readLog_long_time : (⟨"run", [row time]⟩ : Sheet).Legible ∧
    readLog (Text.withNewlines [(⟨"run", [row time]⟩ : Sheet).text]) =
      .error (.tooLong (Number.digitLimit + 1)) ∧
    readLog (Text.withNewlines [(⟨"run", [row time]⟩ : Sheet).text]) ≠
      .ok (entriesOf 0 [⟨"run", [row time]⟩]) := by
  have legible : (⟨"run", [row time]⟩ : Sheet).Legible :=
    ⟨(by decide : Text.Unbroken "run"), List.forall_mem_singleton.mpr (legible_row time)⟩
  have cut : Text.textLines (Text.withNewlines [(⟨"run", [row time]⟩ : Sheet).text]) =
      [headerText "run", (row time).text] := by
    have unbroken := fun line member => (Sheet.unbroken_lines legible line member).1
    have lines := newlines_sheets [⟨"run", [row time]⟩]
    rw [List.map_singleton, List.flatMap_singleton] at lines
    rw [lines, Text.textLines_withNewlines unbroken]
    rfl
  have failed : readLog (Text.withNewlines [(⟨"run", [row time]⟩ : Sheet).text]) =
      .error (.tooLong (Number.digitLimit + 1)) := by
    rw [readLog, cut, List.mapM_cons, LogLine.ofText_header, List.mapM_cons, ofText_row]
    rfl
  refine ⟨legible, failed, ?_⟩
  rw [failed]
  intro same
  cases same

end LongTime

end ProbeWeave.Report
