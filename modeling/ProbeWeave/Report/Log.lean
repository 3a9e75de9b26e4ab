import ProbeWeave.Number.Whole
import ProbeWeave.Report.Line
import ProbeWeave.Text.Lines

/-!
# Reading reports from a log

A log holds any number of printed reports among other output. Each of its lines is the header of a
report, a measured line or something else, which is passed over. Reports are numbered by their
headers; measured lines above the first header belong to a report without a name, and then the
first header begins the second report.
-/

namespace ProbeWeave.Report

open Number (WholeFault)

/-- What a measured line says. -/
structure Measurement where
  depth : Nat
  kind : LineKind
  label : String
  milliseconds : Int
  elapsed : String
  deriving DecidableEq, Inhabited, Repr

/-- What a line of a log is. -/
inductive LogLine where
  | header (entry : String)
  | measured (measurement : Measurement)
  | other
  deriving DecidableEq, Repr

namespace LogLine

/-- The number of markers at the front of a line, and what follows them. -/
def leadingMarkers : List Char → Nat × List Char
  | '|' :: ' ' :: rest => let (n, cs) := leadingMarkers rest; (n + 1, cs)
  | cs => (0, cs)

/-- The kind that a line names behind its markers, and what follows it. -/
def leadingKind? (cs : List Char) : Option (LineKind × List Char) :=
  [LineKind.method, .loop].findSome? fun kind =>
    (("[" ++ kind.text ++ ": ").toList.isPrefixOf? cs).map (kind, ·)

/-- The label of the header that a line is. -/
def header? (cs : List Char) : Option String := do
  let cs ← "[Inside method: ".toList.isPrefixOf? (Text.dropEndWhile Text.isBlank cs)
  if cs.getLast? == some ']' then some (String.ofList cs.dropLast) else none

/-- The parts of a measured line: its measurement with the sign and the digits of the time. -/
def measuredParts? (cs : List Char) : Option (Measurement × Bool × List Nat) := do
  let (depth, cs) := leadingMarkers cs
  let (kind, cs) ← leadingKind? cs
  let label := String.ofList (cs.takeWhile (· != ']'))
  let cs ← "] Time: ".toList.isPrefixOf? (cs.dropWhile (· != ']'))
  let (negative, cs) := if cs.head? == some '-' then (true, cs.tail) else (false, cs)
  let digits := (cs.takeWhile Text.isDigit).filterMap Text.digitValue?
  let cs ← " ms - ".toList.isPrefixOf? (cs.dropWhile Text.isDigit)
  if digits.isEmpty then none
  else
    let elapsed := String.ofList (Text.dropEndWhile Text.isBlank cs)
    some (⟨depth, kind, label, 0, elapsed⟩, negative, digits)

/-- Tells what a line is. A time with too many digits cannot be read. -/
def ofText (line : String) : Except WholeFault LogLine :=
  match header? line.toList with
  | some entry => .ok (.header entry)
  | none =>
    match measuredParts? line.toList with
    | none => .ok .other
    | some (measurement, negative, digits) => do
      let n ← Number.limitedOfDigits digits
      return .measured { measurement with milliseconds := Number.signed negative n }

end LogLine

/-- A measured line with the number and the name of its report. -/
structure Entry extends Measurement where
  report : Nat
  entry : String
  deriving DecidableEq, Inhabited, Repr

/-- The number of the report that a header begins behind another one. -/
def nextReport : Option Nat → Nat
  | none => 0
  | some n => n + 1

/-- The measured lines of a log, given the number and the name of the report it begins in. -/
def entriesFrom (report : Option Nat) (entry : String) : List LogLine → List Entry
  | [] => []
  | .header entry :: rest => entriesFrom (some (nextReport report)) entry rest
  | .measured m :: rest =>
    let number := report.getD 0
    { m with report := number, entry } :: entriesFrom (some number) entry rest
  | .other :: rest => entriesFrom report entry rest

/-- The measured lines of a log. -/
def readLog (text : String) : Except WholeFault (List Entry) := do
  return entriesFrom none "" (← (Text.textLines text).mapM LogLine.ofText)

/-- The entries of each report that has any, in order. -/
def groupReports (entries : List Entry) : List (List Entry) :=
  entries.splitBy fun a b => a.report == b.report

end ProbeWeave.Report
