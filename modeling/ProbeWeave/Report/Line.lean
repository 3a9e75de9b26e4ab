/-!
# Lines of a timing report

A report begins with a header that names the entry routine. Each line shows one probe: its depth
as a row of markers, what it times, and the measured time in milliseconds and in full.
-/

namespace ProbeWeave.Report

/-- What a line of a report times. -/
inductive LineKind where
  | method
  | loop
  deriving DecidableEq, Inhabited, Repr

namespace LineKind

/-- How a kind is written. -/
def text : LineKind → String
  | method => "Method"
  | loop => "Loop"

/-- The kind that is written so. -/
def ofText? (s : String) : Option LineKind :=
  if s == "Method" then some method else if s == "Loop" then some loop else none

end LineKind

/-- A line of a report before anything is measured. -/
structure Line where
  depth : Nat
  kind : LineKind
  /-- The qualified name of a routine, or the name of a loop probe. -/
  label : String
  /-- The names, with points between, that lead to the probe from the entry routine. -/
  probe : String
  deriving DecidableEq, Inhabited, Repr

/-- The first line of a report. -/
def headerText (entry : String) : String :=
  "[Inside method: " ++ entry ++ "]"

/-- The marker of one level of depth. -/
def depthMarker : String := "| "

/-- The markers of a depth. -/
def markers (depth : Nat) : String :=
  String.join (List.replicate depth depthMarker)

/-- The text of a line up to the measured time. -/
def Line.lead (line : Line) : String :=
  markers line.depth ++ "[" ++ line.kind.text ++ ": " ++ line.label ++ "] Time: "

/-- A line with its measured time. -/
def Line.measured (line : Line) (milliseconds : Int) (elapsed : String) : String :=
  line.lead ++ toString milliseconds ++ " ms - " ++ elapsed

end ProbeWeave.Report
