import ProbeWeave.Text.Lines

/-!
# Indenting code without touching texts

A line of code is indented by putting blanks in front of it, unless it is empty or continues a
text that began on an earlier line. Which lines do is found by a scan that knows as much of the
language as that takes: quotes, comments, brackets, continued lines and indentation.

The scan counts lines at newlines only, while the text to indent is also cut at the other line
breaks.
-/

namespace ProbeWeave.Weaving

namespace Indent

/-- Why code cannot be scanned. -/
inductive ScanFault where
  /-- The code ends inside a text or a bracket. -/
  | unfinished
  /-- A line is indented less than the one before but like none that is open. -/
  | indentation
  deriving DecidableEq, Repr

/-- A text that goes on behind the end of a line. -/
structure OpenText where
  quote : Char
  triple : Bool
  /-- The line on which it began. -/
  first : Nat
  deriving DecidableEq

/-- What the scan knows between two lines. -/
structure State where
  /-- Open brackets less closed ones. -/
  level : Int
  /-- Whether a backslash joined the last line to the next one. -/
  joined : Bool
  text : Option OpenText
  /-- Whether a text that goes on has to join its lines. One between single quotes has to; once it
  broke off for want of that, the texts behind it have to as well, up to one that is closed on a
  later line. -/
  strict : Bool
  /-- The indentations that are open, innermost first. -/
  columns : List Nat

/-- What is behind the closing quotes of a text of several lines, if they are on this line. -/
def behindTriple (quote : Char) : List Char → Option (List Char)
  | [] => none
  | '\\' :: c :: rest => if c == '\n' then none else behindTriple quote rest
  | ['\\'] => none
  | c :: rest =>
    if c == quote && rest.take 2 == [quote, quote] then some (rest.drop 2)
    else behindTriple quote rest

/-- What is behind the closing quote of a text that goes on from the line before. -/
def behindSingle (quote : Char) : List Char → Option (List Char)
  | [] => none
  | '\\' :: c :: rest => if c == '\n' then none else behindSingle quote rest
  | ['\\'] => none
  | c :: rest => if c == quote then some rest else behindSingle quote rest

/-- How a text between single quotes goes on behind its opening quote. -/
inductive SingleEnd where
  | closed (rest : List Char)
  | joined
  | none

/-- Finds the end of a text between single quotes. -/
def singleEnd (quote : Char) : List Char → SingleEnd
  | [] => .none
  | '\\' :: '\n' :: _ => .joined
  | '\\' :: '\r' :: '\n' :: _ => .joined
  | '\\' :: _ :: rest => singleEnd quote rest
  | ['\\'] => .none
  | c :: rest =>
    if c == quote then .closed rest else if c == '\n' then .none else singleEnd quote rest

/-- The state behind the rest of a line, given a bound on its length. -/
def scanRest (number : Nat) : Nat → State → List Char → State
  | 0, state, _ => state
  | _ + 1, state, [] => state
  | n + 1, state, c :: rest =>
    if c == '#' then
      scanRest number n state (rest.dropWhile fun d => d != '\r' && d != '\n')
    else if c == '"' || c == '\'' then
      if rest.take 2 == [c, c] then
        match behindTriple c (rest.drop 2) with
        | some rest => scanRest number n state rest
        | none => { state with text := some ⟨c, true, number⟩ }
      else
        match singleEnd c rest with
        | .closed rest => scanRest number n state rest
        | .joined => { state with text := some ⟨c, false, number⟩, strict := true }
        | .none => scanRest number n state rest
    else if c == '\\' then
      if rest == ['\n'] || rest == ['\r', '\n'] then { state with joined := true }
      else scanRest number n state rest
    else if c == '(' || c == '[' || c == '\x7b' then
      scanRest number n { state with level := state.level + 1 } rest
    else if c == ')' || c == ']' || c == '\x7d' then
      scanRest number n { state with level := state.level - 1 } rest
    else scanRest number n state rest

/-- The width of the blanks at the start of a line, and what follows them. -/
def columnOf (column : Nat) : List Char → Nat × List Char
  | ' ' :: rest => columnOf (column + 1) rest
  | '\t' :: rest => columnOf ((column / 8 + 1) * 8) rest
  | '\x0c' :: rest => columnOf 0 rest
  | rest => (column, rest)

/-- Opens or closes indentations for a line. -/
def adjust (column : Nat) (columns : List Nat) : Option (List Nat) :=
  match columns with
  | [] => some [column]
  | top :: _ =>
    if top < column then some (column :: columns)
    else if columns.contains column then some (columns.dropWhile (column < ·))
    else none

/-- Whether a line ends with a backslash that joins it to the next one. -/
def joinsNext (line : List Char) : Bool :=
  line.reverse.take 2 == ['\n', '\\'] || line.reverse.take 3 == ['\n', '\r', '\\']

/-- The state behind a line and the lines of the text that ends on it, first and last. -/
def scanLine (number : Nat) (state : State) (line : List Char) :
    Except ScanFault (State × Option (Nat × Nat)) :=
  match state.text with
  | some text =>
    let behind :=
      if text.triple then behindTriple text.quote line else behindSingle text.quote line
    match behind with
    | some rest =>
      let state := { state with text := none, strict := false }
      .ok (scanRest number (line.length + 1) state rest, some (text.first, number))
    | none =>
      .ok (if state.strict && !joinsNext line then { state with text := none } else state, none)
  | none =>
    if state.level == 0 && !state.joined then
      let (column, rest) := columnOf 0 line
      match rest with
      | [] => .ok (state, none)
      | c :: _ =>
        if c == '#' || c == '\r' || c == '\n' then .ok (state, none)
        else
          match adjust column state.columns with
          | none => .error .indentation
          | some columns =>
            .ok (scanRest number (line.length + 1) { state with columns } rest, none)
    else .ok (scanRest number (line.length + 1) { state with joined := false } line, none)

/-- The texts of several lines, each as its first and last line. -/
def scanLines (number : Nat) (state : State) :
    List (List Char) → Except ScanFault (List (Nat × Nat))
  | [] =>
    if state.text.isSome || state.level != 0 || state.joined then .error .unfinished else .ok []
  | line :: lines => do
    let (state, span) ← scanLine number state line
    let spans ← scanLines (number + 1) state lines
    return span.toList ++ spans

/-- The texts of several lines in some code. -/
def textSpans (code : String) : Except ScanFault (List (Nat × Nat)) :=
  scanLines 1 ⟨0, false, none, false, [0]⟩ (Text.cutLines (· == '\n') code.toList)

/-- Whether a line continues one of the texts. -/
def continues (spans : List (Nat × Nat)) (number : Nat) : Bool :=
  spans.any fun (first, last) => first < number && number ≤ last

end Indent

/-- The lines of some code, indented. -/
def indentCode (code : String) (indentation : String) :
    Except Indent.ScanFault (List String) := do
  let spans ← Indent.textSpans code
  return (Text.textLines code).mapIdx fun i line =>
    if line.isEmpty || Indent.continues spans (i + 1) then line else indentation ++ line

end ProbeWeave.Weaving
