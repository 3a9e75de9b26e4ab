/-!
# Tables

A table is drawn with plain characters: a frame of `+`, `-` and `|`, an optional title above it, a
line of centred headers and one line for each row. A column is as wide as its widest text. The
first cell of a row is a name and stands at the left, the others are values and stand at the right.

A row may have fewer cells than there are columns; its line is then shorter.
-/

namespace ProbeWeave.Text

/-- What a table shows. An empty title is none. -/
structure Table where
  title : String
  headers : List String
  rows : List (List String)
  deriving DecidableEq, Inhabited, Repr

namespace Table

/-- Why a table cannot be drawn. -/
inductive Fault where
  /-- A row has more cells than there are columns. -/
  | wideRow
  /-- A title has no columns to stand above. -/
  | noColumns
  deriving DecidableEq, Repr

/-- What a fault is reported as. -/
def Fault.message : Fault → String
  | wideRow => "list index out of range"
  | noColumns => "Sign not allowed in string format specifier"

/-- A row of blanks. -/
def blanks (n : Nat) : String :=
  String.ofList (List.replicate n ' ')

/-- A text at the left of a column. -/
def atLeft (width : Nat) (s : String) : String :=
  s ++ blanks (width - s.length)

/-- A text at the right of a column. -/
def atRight (width : Nat) (s : String) : String :=
  blanks (width - s.length) ++ s

/-- A text in the middle of a column, an odd blank behind it. -/
def centred (width : Nat) (s : String) : String :=
  let gap := width - s.length
  blanks (gap / 2) ++ s ++ blanks (gap - gap / 2)

/-- Makes columns wide enough for the cells of a row. -/
def widen : List Nat → List String → Except Fault (List Nat)
  | widths, [] => .ok widths
  | [], _ :: _ => .error .wideRow
  | width :: widths, cell :: cells => do
    return max width cell.length :: (← widen widths cells)

/-- The widths of the columns. -/
def widths (t : Table) : Except Fault (List Nat) :=
  t.rows.foldlM widen (t.headers.map String.length)

/-- The line between the parts of a table. -/
def ruler (widths : List Nat) : String :=
  "+" ++ "+".intercalate (widths.map fun w => String.ofList (List.replicate (w + 2) '-')) ++ "+"

/-- The line of cells that are already padded. -/
def lineOf (cells : List String) : String :=
  "|" ++ String.join (cells.map fun cell => " " ++ cell ++ " |")

/-- The line of the headers. -/
def headerLine (widths : List Nat) (headers : List String) : String :=
  lineOf (List.zipWith centred widths headers)

/-- The line of a row. -/
def rowLine (widths : List Nat) (row : List String) : String :=
  lineOf <|
    match widths, row with
    | width :: widths, cell :: cells => atLeft width cell :: List.zipWith atRight widths cells
    | _, _ => []

/-- The lines of a title above a ruler of some length. -/
def titleLines (total : Nat) (title : String) : Except Fault (List String) :=
  if title.isEmpty then .ok []
  else if total < 4 then .error .noColumns
  else
    .ok ["+" ++ String.ofList (List.replicate (total - 2) '=') ++ "+",
      "| " ++ centred (total - 4) title ++ " |"]

/-- The lines of a table. -/
def lines (t : Table) : Except Fault (List String) := do
  let widths ← t.widths
  let ruler := ruler widths
  let title ← titleLines ruler.length t.title
  return title ++ [ruler, headerLine widths t.headers, ruler] ++ t.rows.map (rowLine widths) ++ [ruler]

/-- The text of a table. -/
def text (t : Table) : Except Fault String := do
  return "\n".intercalate (← t.lines)

end Table

end ProbeWeave.Text
