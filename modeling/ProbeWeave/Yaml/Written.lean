import ProbeWeave.Text.Utf8
import ProbeWeave.Yaml.Token

/-!
# How texts are written in a document

A text is written bare, between single or double quotes, or as an indented block. Within a text
that goes over several lines a line break counts as a blank, and each empty line as a line break. A
block keeps its line breaks, unless it asks to be folded.
-/

namespace ProbeWeave.Yaml

namespace Written

/-- A number of line breaks. -/
def breaks (n : Nat) : List Char :=
  List.replicate n '\n'

/-- What a line break with the breaks of empty lines behind it counts as. -/
def foldBreak (first : Char) (empty : List Char) : List Char :=
  if first != '\n' then first :: empty
  else if empty.isEmpty then [' ']
  else empty

/-! ### Quoted texts -/

/-- Whether a character separates lines or paragraphs; such a break stands for itself. -/
def isSeparator (c : Char) : Bool :=
  c == '\u2028' || c == '\u2029'

/-- Passes over a line break between quotes; also gives what it stands for. -/
def quotedBreak? (c : Cursor) : Option (Char × Cursor) :=
  match c.lineBreak? with
  | some c => some ('\n', c)
  | none => ((c.peek? 0).filter isSeparator).map fun d => (d, c.next)

/-- The empty lines behind a line break between quotes; no marker of a document may stand there. -/
def emptyLines : Nat → Cursor → Option (List Char × Cursor)
  | 0, _ => none
  | fuel + 1, c =>
    if c.atMarker then none
    else
      let (_, c) := c.span Cursor.isGap
      match quotedBreak? c with
      | some (d, c) => do
        let (ds, c) ← emptyLines fuel c
        return (d :: ds, c)
      | none => some ([], c)

/-- The characters that a letter behind a backslash stands for. -/
def escapes : List (Char × Char) :=
  [('0', '\x00'), ('a', '\x07'), ('b', '\x08'), ('t', '\t'), ('\t', '\t'), ('n', '\n'),
    ('v', '\x0b'), ('f', '\x0c'), ('r', '\r'), ('e', '\x1b'), (' ', ' '), ('"', '"'), ('/', '/'),
    ('\\', '\\'), ('N', '\u0085'), ('_', '\u00a0'), ('L', '\u2028'), ('P', '\u2029')]

/-- The letters behind a backslash that hexadecimal digits follow, with the number of digits. -/
def codeEscapes : List (Char × Nat) :=
  [('x', 2), ('u', 4), ('U', 8)]

/-- The value of a hexadecimal digit. -/
def hexDigit? (c : Char) : Option Nat :=
  if c.isDigit then some (c.toNat - 48)
  else if 'a' ≤ c && c ≤ 'f' then some (c.toNat - 87)
  else if 'A' ≤ c && c ≤ 'F' then some (c.toNat - 55)
  else none

/-- What an escape stands for, and what follows it. -/
def escape? (c : Cursor) : Option (List Char × Cursor) := do
  let letter ← c.peek? 0
  match escapes.lookup letter, codeEscapes.lookup letter with
  | some d, _ => some ([d], c.next)
  | none, some n =>
    let digits ← (c.next.rest.take n).mapM hexDigit?
    if digits.length < n then none
    else some ([Char.ofNat (digits.foldl (fun v d => 16 * v + d) 0)], c.skip (n + 1))
  | none, none => do
    let (_, c) ← quotedBreak? c
    emptyLines (c.rest.length + 1) c

/-- A text up to its closing quote, and what follows. -/
def quoted (double : Bool) : Nat → Cursor → Option (List Char × Cursor)
  | 0, _ => none
  | fuel + 1, c => do
    let d ← c.peek? 0
    let more (cs : List Char) (c : Cursor) : Option (List Char × Cursor) := do
      let (text, c) ← quoted double fuel c
      return (cs ++ text, c)
    if d == (if double then '"' else '\'') then
      if !double && c.looksAt 1 (· == '\'') then more ['\''] (c.skip 2) else some ([], c.next)
    else if double && d == '\\' then
      let (cs, c) ← escape? c.next
      more cs c
    else if Cursor.isGap d || Cursor.isBreak d || isSeparator d then
      let (gap, c) := c.span Cursor.isGap
      match quotedBreak? c with
      | some (d, c) => do
        let (empty, c) ← emptyLines (c.rest.length + 1) c
        more (foldBreak d empty) c
      | none => more gap c
    else more [d] c.next

/-! ### Bare texts -/

/-- The front of some characters that belongs to one line of a bare text. -/
def bareRun (inline : Bool) : List Char → List Char
  | [] => []
  | c :: rest =>
    if c == ':' then
      if rest.head?.all fun d => Cursor.isBreak d || Cursor.isGap d then []
      else c :: bareRun inline rest
    else if Cursor.isBreak c || Cursor.isGap c || (inline && ",[]\x7b\x7d".contains c) then []
    else c :: bareRun inline rest

/-- The empty lines behind a line break of a bare text, `none` at a marker of a document. -/
def bareEmptyLines : Nat → Cursor → Option Nat × Cursor
  | 0, c => (none, c)
  | fuel + 1, c =>
    let (_, c) := c.span (· == ' ')
    match c.lineBreak? with
    | some c =>
      if c.atMarker then (none, c)
      else
        let (n, c) := bareEmptyLines fuel c
        (n.map (· + 1), c)
    | none => (some 0, c)

/-- What lies between two runs of a bare text. -/
structure Between where
  /-- What it counts as; nothing if the text ends. -/
  chars : List Char
  /-- Whether a line break was passed. -/
  crossed : Bool
  cursor : Cursor

/-- Passes over what lies behind a run of a bare text. -/
def between (c : Cursor) : Between :=
  let (gap, c) := c.span (· == ' ')
  if c.endsLine 0 then
    match c.lineBreak? with
    | none => ⟨[], true, c⟩
    | some c =>
      if c.atMarker then ⟨[], true, c⟩
      else
        match bareEmptyLines (c.rest.length + 1) c with
        | (some n, c) => ⟨foldBreak '\n' (breaks n), true, c⟩
        | (none, c) => ⟨[], true, c⟩
  else ⟨gap, false, c⟩

/-- A bare text that is indented more than a column: what it says, and what lies behind it. -/
def bare (inline : Bool) (indent : Int) : Nat → Cursor → List Char × Between
  | 0, c => ([], ⟨[], false, c⟩)
  | fuel + 1, c =>
    let run := bareRun inline c.rest
    let gap := between (c.skip run.length)
    let next := gap.cursor
    if gap.chars.isEmpty || next.looksAt 0 (· == '#') ||
        (!inline && next.place.column < indent + 1) || (bareRun inline next.rest).isEmpty then
      (run, gap)
    else
      let (text, last) := bare inline indent fuel next
      (run ++ gap.chars ++ text, last)

/-! ### Blocks -/

/-- Which line breaks at its end a block keeps. -/
inductive Chomp where
  | clip
  | strip
  | keep
  deriving DecidableEq, Repr

/-- The mark of what a block keeps, if it is one. -/
def chomp? (c : Char) : Option Chomp :=
  if c == '+' then some .keep else if c == '-' then some .strip else none

/-- The marks behind the beginning of a block: what it keeps, and its indentation if given. -/
def blockMarks? (c : Cursor) : Option (Chomp × Option Nat × Cursor) := do
  let digit (c : Cursor) : Option (Option Nat × Cursor) :=
    match c.peek? 0 with
    | some d => if d == '0' then none else
      if d.isDigit then some (some (d.toNat - 48), c.next) else some (none, c)
    | none => some (none, c)
  let mark (c : Cursor) : Option Chomp × Cursor :=
    match (c.peek? 0).bind chomp? with
    | some m => (some m, c.next)
    | none => (none, c)
  match mark c with
  | (some m, c) => do
    let (width, c) ← digit c
    if c.endsWord 0 then some (m, width, c) else none
  | (none, c) => do
    let (width, c) ← digit c
    let (m, c) := if width.isSome then mark c else (none, c)
    if c.endsWord 0 then some (m.getD .clip, width, c) else none

/-- Passes over the rest of the line that a block begins on. -/
def restOfLine? (c : Cursor) : Option Cursor :=
  let (_, c) := c.span (· == ' ')
  let c := if c.looksAt 0 (· == '#') then (c.span fun d => !Cursor.isBreak d).2 else c
  if c.rest.isEmpty then some c else c.lineBreak?

/-- Passes over the indentation of a line, at most up to a column. -/
def indentTo (column : Nat) : Nat → Cursor → Cursor
  | 0, c => c
  | fuel + 1, c =>
    if c.place.column < column && c.looksAt 0 (· == ' ') then indentTo column fuel c.next else c

/-- The empty lines in front of a line of a block. -/
def blockEmptyLines (column : Nat) : Nat → Cursor → Nat × Cursor
  | 0, c => (0, c)
  | fuel + 1, c =>
    let c := indentTo column column c
    match c.lineBreak? with
    | some c =>
      let (n, c) := blockEmptyLines column fuel c
      (n + 1, c)
    | none => (0, c)

/-- The empty lines in front of a block, and the widest indentation that was met. -/
def blockFront : Nat → Nat → Cursor → Nat × Nat × Cursor
  | 0, widest, c => (0, widest, c)
  | fuel + 1, widest, c =>
    let (_, c) := c.span (· == ' ')
    let widest := max widest c.place.column
    match c.lineBreak? with
    | some c =>
      let (n, widest, c) := blockFront fuel widest c
      (n + 1, widest, c)
    | none => (0, widest, c)

/--
The lines of a block that are indented by a column, given the empty lines in front: its text, and
the line breaks at its end, the one behind the last line apart.
-/
def blockLines (folded : Bool) (column : Nat) (outermost : Bool) :
    Nat → Nat → Cursor → List Char × List Char × Nat × Cursor
  | 0, empty, c => ([], [], empty, c)
  | fuel + 1, empty, c =>
    if c.place.column != column || c.rest.isEmpty then ([], [], empty, c)
    else
      let indented := c.looksAt 0 Cursor.isGap
      let (line, c) := c.span fun d => !Cursor.isBreak d
      let (ending, c) :=
        match c.lineBreak? with
        | some c => (['\n'], c)
        | none => ([], c)
      let (after, c) := blockEmptyLines column (c.rest.length + 1) c
      if (outermost && c.place.column == 0 && c.atMarker) || c.place.column != column ||
          c.rest.isEmpty then
        (breaks empty ++ line, ending, after, c)
      else
        let joint :=
          if folded && !indented && !c.looksAt 0 Cursor.isGap then
            if after == 0 then [' '] else []
          else ending
        let (text, last, after, c) := blockLines folded column outermost fuel after c
        (breaks empty ++ line ++ joint ++ text, last, after, c)

/-- A block, behind the sign it begins with, in surroundings of some indentation. -/
def block (folded : Bool) (indent : Int) (c : Cursor) : Option (List Char × Cursor) := do
  let (chomp, width, c) ← blockMarks? c
  let c ← restOfLine? c
  let least := (indent + 1).toNat
  let fuel := c.rest.length + 1
  let (column, empty, c) :=
    match width with
    | some width =>
      let column := max least 1 + width - 1
      let (n, c) := blockEmptyLines column fuel c
      (column, n, c)
    | none =>
      let (n, widest, c) := blockFront fuel 0 c
      (max least widest, n, c)
  let (text, ending, after, c) := blockLines folded column (least == 0) fuel empty c
  let text := text ++ (if chomp == .strip then [] else ending)
  some (if chomp == .keep then text ++ breaks after else text, c)

end Written

end ProbeWeave.Yaml
