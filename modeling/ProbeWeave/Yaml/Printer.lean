import ProbeWeave.Text.Quoted
import ProbeWeave.Yaml.Scalar

/-!
# Writing documents

Maps and lists are written as indented blocks unless they were read between brackets. A text is
written bare if it then reads as the same text, between single quotes if not, and between double
quotes if it holds a quote, a line break or something that cannot be printed. Long texts are broken
at blanks.
-/

namespace ProbeWeave.Yaml

/-! ### Pages

A page is text that is being written, together with what is known about its last line: how long it
is, whether it ends with a blank, and whether it holds nothing but indentation and marks. -/

/-- Text that is being written. -/
structure Page where
  text : String
  column : Nat
  /-- Whether the last line is empty or ends with a blank. -/
  blank : Bool
  /-- Whether the last line holds only indentation and marks. -/
  fresh : Bool
  deriving Inhabited, Repr

namespace Page

/-- The page without text. -/
def empty : Page :=
  ⟨"", 0, true, true⟩

/-- The width that lines are kept within where they can be broken. -/
def width : Nat := 80

/-- Adds text to the last line. -/
def put (p : Page) (s : String) : Page :=
  ⟨p.text ++ s, p.column + s.length, false, false⟩

/-- Adds blanks to the last line. -/
def pad (p : Page) (n : Nat) : Page :=
  { p with text := p.text ++ String.ofList (List.replicate n ' '), column := p.column + n, blank := true }

/-- Ends the last line with a break. -/
def breakLine (p : Page) (c : Char) : Page :=
  ⟨p.text.push c, 0, true, true⟩

/-- Ends the last line. -/
def newline (p : Page) : Page :=
  p.breakLine '\n'

/-- Goes to a column, on a new line unless the last one can be used. -/
def goTo (p : Page) (column : Nat) : Page :=
  let p := if !p.fresh || column < p.column || (p.column == column && !p.blank) then p.newline else p
  if p.column < column then p.pad (column - p.column) else p

/-- Makes the last line end with a blank. -/
def gap (p : Page) : Page :=
  if p.blank then p else ⟨p.text ++ " ", p.column + 1, true, p.fresh⟩

/-- Adds a mark behind a blank; nothing but marks may follow each other on a fresh line. -/
def mark (p : Page) (s : String) : Page :=
  let p := p.gap
  ⟨p.text ++ s, p.column + s.length, false, p.fresh⟩

end Page

/-! ### Documents -/

namespace Printer

/-- Whether a character ends a line. -/
def isBreak (c : Char) : Bool :=
  c == '\n' || c == '\u0085' || c == '\u2028' || c == '\u2029'

/-- Whether a character parts words for the reader of a document. -/
def isSpace (c : Char) : Bool :=
  isBreak c || c == ' ' || c == '\t' || c == '\r' || c == '\x00'

/-- Whether a character can only be written as an escape. -/
def isSpecial (c : Char) : Bool :=
  let n := c.toNat
  c == '\ufeff' || !(c == '\n' || (0x20 ≤ n && n ≤ 0x7e) || n == 0x85 || (0xa0 ≤ n && n ≤ 0xfffd) ||
    0x10000 ≤ n)

/-- Neighbouring characters of a text. -/
def pairs (cs : List Char) : List (Char × Char) :=
  cs.zip cs.tail

/-- What a text allows. -/
structure Shape where
  /-- Bare in a block. -/
  bareBlock : Bool
  /-- Bare between brackets. -/
  bareInline : Bool
  single : Bool
  multiline : Bool
  deriving DecidableEq, Repr

/-- Whether a text begins like something else. -/
def beginsMarked (cs : List Char) : Bool :=
  match cs with
  | [] => false
  | c :: rest =>
    "#,[]\x7b\x7d&*!|>'\"%@\x60".contains c || ("-?:".contains c && rest.head?.all isSpace) ||
      ['-', '-', '-'].isPrefixOf cs || ['.', '.', '.'].isPrefixOf cs

/-- Whether a text holds the colon of a key or the beginning of a comment. -/
def holdsMark (cs : List Char) : Bool :=
  (pairs cs).any fun (a, b) => (a == ':' && isSpace b) || (isSpace a && b == '#')

/-- What a text allows. -/
def shapeOf (cs : List Char) : Shape :=
  if cs.isEmpty then ⟨true, false, true, false⟩
  else
    let special := cs.any isSpecial
    let edge (c? : Option Char) : Bool := c?.any fun c => c == ' ' || isBreak c
    let ragged := (pairs cs).any fun (a, b) => (a == ' ' && isBreak b) || (isBreak a && b == ' ')
    let multiline := cs.any isBreak
    let single := !special && !ragged
    let colonEnd := cs.getLast? == some ':'
    let bare := single && !multiline && !edge cs.head? && !edge cs.getLast?
    let block := bare && !beginsMarked cs && !holdsMark cs && !(1 < cs.length && colonEnd)
    let inline := block && !(cs.tail.any (",[]\x7b\x7d".contains ·)) && cs != ['?'] && cs != [':']
    ⟨block, inline, single, multiline⟩

/-- How a text is written in some place. -/
def styleFor (inline isKey : Bool) (s : String) (style : Style) : Style :=
  let shape := shapeOf s.toList
  let quotes := if shape.single && !(isKey && shape.multiline) then Style.single else .double
  match style with
  | .double => .double
  | .single => quotes
  | .literal | .folded =>
    if !inline && !isKey && !s.isEmpty && !s.toList.any isSpecial then style else quotes
  | .plain =>
    let bare := if inline then shape.bareInline else shape.bareBlock
    if bare && Scalar.isPlainText s && !(isKey && (s.isEmpty || shape.multiline)) then .plain
    else if s.toList.contains '\'' || s.toList.contains '\n' then .double
    else quotes

/-- The runs of blanks and of other characters. -/
def runs (cs : List Char) : List (List Char) :=
  cs.splitBy fun a b => (a == ' ') == (b == ' ')

/-- Writes a bare text; a word that does not fit begins a line. -/
def bare (indent : Nat) (s : String) (p : Page) : Page :=
  if s.isEmpty then p
  else
    (runs s.toList).foldl (fun p run =>
      let text := String.ofList run
      if run.head? == some ' ' then
        if run.length == 1 && Page.width < p.column then p.goTo indent else p.put text
      else if Page.width < p.column + run.length && indent < p.column then
        (p.newline.pad indent).put text
      else p.put text) { p.gap with fresh := false }

/-- Writes a text between single quotes. -/
def single (indent : Nat) (splits : Bool) (s : String) (p : Page) : Page :=
  let rec go (atStart : Bool) : List (List Char) → Page → Page
    | [], p => p
    | run :: rest, p =>
      go false rest <|
        if run.head? == some ' ' then
          if run.length == 1 && Page.width < p.column && splits && !atStart && !rest.isEmpty then
            { p with fresh := false }.goTo indent
          else p.put (String.ofList run)
        else if run.head?.any isBreak then
          let p := if run.head? == some '\n' then p.newline else p
          (run.foldl Page.breakLine p).goTo indent
        else p.put (String.ofList (run.flatMap fun c => if c == '\'' then [c, c] else [c]))
  let kind (c : Char) : Nat := if c == ' ' then 0 else if isBreak c then 1 else 2
  (go true (s.toList.splitBy fun a b => kind a == kind b) (p.mark "'")).put "'"

/-- The letters for characters that are escaped by one. -/
def letterEscapes : List (Char × Char) :=
  [('\x00', '0'), ('\x07', 'a'), ('\x08', 'b'), ('\t', 't'), ('\n', 'n'), ('\x0b', 'v'),
    ('\x0c', 'f'), ('\r', 'r'), ('\x1b', 'e'), ('"', '"'), ('\\', '\\'), ('\u0085', 'N'),
    ('\u00a0', '_'), ('\u2028', 'L'), ('\u2029', 'P')]

/-- A hexadecimal number in capital letters with a fixed number of digits. -/
def capitalHex (width n : Nat) : List Char :=
  (Text.hexFixed width n).map Char.toUpper

/-- What is written for a character between double quotes. -/
def escaped (c : Char) : List Char :=
  let n := c.toNat
  let free := (0x20 ≤ n && n ≤ 0x7e) || (0xa0 ≤ n && n ≤ 0xfffd)
  if free && !(['"', '\\', '\u2028', '\u2029', '\ufeff'].contains c) then [c]
  else
    match letterEscapes.lookup c with
    | some letter => ['\\', letter]
    | none =>
      if n ≤ 0xff then '\\' :: 'x' :: capitalHex 2 n
      else if n ≤ 0xffff then '\\' :: 'u' :: capitalHex 4 n
      else '\\' :: 'U' :: capitalHex 8 n

/--
Writes a text between double quotes. A line that is full is broken at a blank or behind an escape;
a backslash at its end says that no blank is meant there.
-/
def double (indent : Nat) (splits : Bool) (s : String) (p : Page) : Page :=
  let rec go : List Char → Page → Page
    | [], p => p
    | c :: rest, p =>
      let cs := escaped c
      let isEscape := cs != [c]
      if splits && p.text.back != '"' && !rest.isEmpty && c == ' ' && Page.width < p.column + 1 then
        let q := (p.put "\\").newline.pad indent
        go rest (q.put "\\ ")
      else
        let p := p.put (String.ofList cs)
        if splits && isEscape && 1 < rest.length && Page.width < p.column then
          let q := (p.put "\\").newline.pad indent
          go rest (if rest.head? == some ' ' then q.put "\\" else q)
        else go rest p
  (go s.toList (p.mark "\"")).put "\""

/-- The marks behind the beginning of a block: its indentation and the line breaks it keeps. -/
def blockHints (cs : List Char) : String :=
  (if cs.head?.any fun c => c == ' ' || isBreak c then "2" else "") ++
    match cs.reverse with
    | [] => ""
    | [c] => if isBreak c then "+" else "-"
    | c :: d :: _ => if !isBreak c then "-" else if isBreak d then "+" else ""

/-- Writes a text as a block that keeps its lines. -/
def block (indent : Nat) (sign : String) (s : String) (p : Page) : Page :=
  let lines := s.splitOn "\n"
  let lines := if lines.getLast? == some "" then lines.dropLast else lines
  let p := p.mark (sign ++ blockHints s.toList)
  lines.foldl (fun p line =>
    let p := p.newline
    if line.isEmpty then p else (p.pad indent).put line) p

/-- Writes a text. -/
def text (inline isKey : Bool) (indent : Nat) (s : String) (style : Style) (p : Page) : Page :=
  match styleFor inline isKey s style with
  | .plain => bare indent s p
  | .single => single indent (!isKey) s p
  | .double => double indent (!isKey) s p
  | .literal => block indent "|" s p
  | .folded => block indent ">" (s.replace "\n" "\n\n") p

/-- Writes a scalar. -/
def scalar (inline isKey : Bool) (indent : Nat) (s : Scalar) (p : Page) : Page :=
  match s with
  | .null => if isKey then p.mark "? " else p
  | .bool b => p.mark (if b then "true" else "false")
  | .int _ written | .float _ written | .date written => bare indent written p
  | .text s style => text inline isKey indent s style p

/-- The longest text that is written as a key on the line of its value. -/
def longestKey : Nat := 122

/-- Whether a node is written as a key on the line of its value. -/
def isSimpleKey (node : Node) : Bool :=
  match node.bare with
  | .scalar (.text s _) => s.length ≤ longestKey && !(shapeOf s.toList).multiline
  | .scalar _ => true
  | .list inline items => inline || items.isEmpty
  | .map inline entries => inline || entries.isEmpty
  | .named .. => true

/-- Whether a node is a scalar. -/
def isScalar (node : Node) : Bool :=
  match node.bare with
  | .scalar _ => true
  | _ => false

/-- Whether a node is a list. -/
def isList (node : Node) : Bool :=
  match node.bare with
  | .list .. => true
  | _ => false

mutual

/-- The names in a node, as often as they occur. -/
def names : Node → List String
  | .scalar _ => []
  | .list _ items => namesOfList items
  | .map _ entries => namesOfEntries entries
  | .named name node => name :: names node

/-- The names in nodes. -/
def namesOfList : List Node → List String
  | [] => []
  | node :: rest => names node ++ namesOfList rest

/-- The names in keys and nodes. -/
def namesOfEntries : List (Node × Node) → List String
  | [] => []
  | (key, node) :: rest => names key ++ names node ++ namesOfEntries rest

end

/-- What is written, and the names that were. -/
abbrev Draft := Page × List String

mutual

/-- Writes a node, given the names that occur more than once and the column of its surroundings. -/
def node (shared : List String) (inline isKey : Bool) (indent : Nat) : Node → Draft → Draft
  | .scalar s, (p, done) => (scalar inline isKey (indent + 2) s p, done)
  | .named name inner, (p, done) =>
    if done.contains name then (p.mark ("*" ++ name), done)
    else if shared.contains name || isScalar inner then
      node shared inline isKey indent inner (p.mark ("&" ++ name), name :: done)
    else node shared inline isKey indent inner (p, done)
  | .list brackets elements, (p, done) =>
    if inline || brackets || elements.isEmpty then
      let (p, done) := items shared (indent + 2) true elements ({ p.mark "[" with blank := true }, done)
      (p.put "]", done)
    else blockItems shared indent elements (p, done)
  | .map brackets elements, (p, done) =>
    if inline || brackets || elements.isEmpty then
      let (p, done) := entries shared (indent + 2) true elements ({ p.mark "\x7b" with blank := true }, done)
      (p.put "\x7d", done)
    else blockEntries shared (indent + 2) elements (p, done)

/-- Writes the items of a list between brackets. -/
def items (shared : List String) (indent : Nat) (first : Bool) : List Node → Draft → Draft
  | [], d => d
  | item :: rest, (p, done) =>
    let p := if first then p else p.put ","
    let p := if Page.width < p.column then { p with fresh := false }.goTo indent else p
    items shared indent false rest (node shared true false indent item (p, done))

/-- Writes the entries of a map between brackets. -/
def entries (shared : List String) (indent : Nat) (first : Bool) : List (Node × Node) → Draft → Draft
  | [], d => d
  | (key, value) :: rest, (p, done) =>
    let p := if first then p else p.put ","
    let p := if Page.width < p.column then { p with fresh := false }.goTo indent else p
    let (p, done) := node shared true true indent key (p, done)
    entries shared indent false rest (node shared true false indent value (p.put ":", done))

/-- Writes the items of a list as a block. -/
def blockItems (shared : List String) (indent : Nat) : List Node → Draft → Draft
  | [], d => d
  | item :: rest, (p, done) =>
    let p := (p.goTo indent).mark "-"
    let inner := if isList item then indent + 2 else indent
    blockItems shared indent rest (node shared false false inner item (p, done))

/-- Writes the entries of a map as a block. -/
def blockEntries (shared : List String) (indent : Nat) : List (Node × Node) → Draft → Draft
  | [], d => d
  | (key, value) :: rest, (p, done) =>
    let p := p.goTo indent
    let (p, done) :=
      if isSimpleKey key then
        let (p, done) := node shared false true indent key (p, done)
        (p.put ":", done)
      else
        let (p, done) := node shared false false indent key (p.mark "?", done)
        ((p.goTo indent).mark ":", done)
    blockEntries shared indent rest (node shared false false indent value (p, done))

end

/-- The elements of a list that occur more than once. -/
def repeated (xs : List String) : List String :=
  xs.filter fun x => 1 < xs.count x

end Printer

/-- Writes a document. -/
def write (root : Node) : String :=
  let shared := Printer.repeated (Printer.names root)
  let (p, _) :=
    match root with
    | .map false (entry :: rest) => Printer.blockEntries shared 0 (entry :: rest) (.empty, [])
    | root => Printer.node shared false false 0 root (.empty, [])
  (if p.column == 0 then p else p.newline).text

end ProbeWeave.Yaml
