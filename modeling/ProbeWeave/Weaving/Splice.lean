import ProbeWeave.Text.Lines

/-!
# Replacing lines of a text

An edit replaces a run of lines or, if the run is empty, inserts lines in front of one. Edits are
applied from the top down; insertions come before a replacement that begins at the same line, and
insertions at one line keep their order. Lines outside of the edits keep their own line breaks;
new lines get the break that the text uses.
-/

namespace ProbeWeave.Weaving

/-- Puts lines in the place of those from `first` to `last`, both counted from 1. -/
structure LineEdit where
  first : Int
  last : Int
  lines : List String
  deriving DecidableEq, Inhabited, Repr

namespace LineEdit

/-- An edit that replaces no line. -/
def isInsertion (e : LineEdit) : Bool :=
  e.last < e.first

/-- An edit that inserts lines in front of a line. -/
def insertAt (line : Int) (lines : List String) : LineEdit :=
  ⟨line, line - 1, lines⟩

/-- Edits are applied in the order of their first lines, insertions first. -/
def precedes (a b : LineEdit) : Bool :=
  a.first < b.first || (a.first == b.first && (a.isInsertion || !b.isInsertion))

end LineEdit

/-- The break that new lines of a text get: that of the text, if it uses two characters. -/
def newlineOf (source : List Char) : String :=
  match source with
  | [] => "\n"
  | c :: rest => if c == '\r' && rest.head? == some '\n' then "\r\n" else newlineOf rest

/-- An index into a list of a given length; one below zero counts from the end. -/
def resolveIndex (length : Nat) (i : Int) : Nat :=
  if i < 0 then (i + length).toNat else i.toNat

/-- The elements from one index up to another. -/
def between {α : Type} (xs : List α) (start stop : Int) : List α :=
  let start := resolveIndex xs.length start
  let stop := resolveIndex xs.length stop
  (xs.drop start).take (stop - start)

/-- The elements from an index on. -/
def after {α : Type} (xs : List α) (start : Int) : List α :=
  xs.drop (resolveIndex xs.length start)

/-- Whether a line ends with a break. -/
def endsWithBreak (line : String) : Bool :=
  line.toList.getLast?.any Text.isSourceBreak

/-- The lines of a text, the last one closed with a break. -/
def closedLines (source : String) (newline : String) : List String :=
  let lines := Text.sourceLines source
  match lines.getLast? with
  | some last => if endsWithBreak last then lines else lines.dropLast ++ [last ++ newline]
  | none => []

/-- Applies sorted edits to the lines from a position on, which is counted from 1. -/
def applySorted (lines : List String) (newline : String) : Int → List LineEdit → List String
  | position, [] => after lines (position - 1)
  | position, e :: edits =>
    let position' := max position e.first
    between lines (position - 1) (e.first - 1) ++ e.lines.map (· ++ newline) ++
      applySorted lines newline (if e.isInsertion then position' else e.last + 1) edits

/-- Applies edits to a text. -/
def applyEdits (source : String) (edits : List LineEdit) : String :=
  let newline := newlineOf source.toList
  String.join (applySorted (closedLines source newline) newline 1 (edits.mergeSort LineEdit.precedes))

end ProbeWeave.Weaving
