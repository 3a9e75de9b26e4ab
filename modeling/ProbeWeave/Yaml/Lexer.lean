import ProbeWeave.Yaml.Written

/-!
# From text to tokens

Outside of brackets the indentation gives the structure: a deeper entry or key begins a block, and a
shallower one ends blocks. Whether something is a key is known only at the colon behind it, so each
place where a key could begin is remembered, one for every depth of brackets; the colon then marks
the key at that place. A place is forgotten at the end of its line.
-/

namespace ProbeWeave.Yaml

/-- A place where a key could begin. -/
structure Candidate where
  /-- The number of tokens before it. -/
  token : Nat
  /-- Whether only a key may stand there. -/
  required : Bool
  place : Place
  deriving DecidableEq, Inhabited, Repr

/-- A kind of brackets. -/
inductive Bracket where
  | list
  | map
  deriving DecidableEq, Inhabited, Repr

/-- A document that is being cut into tokens. -/
structure Lexer where
  cursor : Cursor
  /-- The indentations of the open blocks, the innermost first. -/
  indents : List Int
  /-- The open brackets, the innermost first. -/
  brackets : List Bracket
  /-- Whether a key may begin here. -/
  keyAllowed : Bool
  /-- The candidates by the depth of brackets around them. -/
  candidates : List (Nat × Candidate)
  tokens : Array Token
  deriving Inhabited

namespace Lexer

/-- The depth of brackets. -/
def depth (l : Lexer) : Nat :=
  l.brackets.length

/-- Whether brackets are open. -/
def isInline (l : Lexer) : Bool :=
  !l.brackets.isEmpty

/-- The indentation of the innermost block. -/
def indent (l : Lexer) : Int :=
  l.indents.headD (-1)

/-- The column of the next character. -/
def column (l : Lexer) : Nat :=
  l.cursor.place.column

/-- Adds a token. -/
def push (l : Lexer) (t : Token) : Lexer :=
  { l with tokens := l.tokens.push t }

/-- Adds a token and passes over the characters it was written with. -/
def take (l : Lexer) (t : Token) (n : Nat) : Lexer :=
  { l.push t with cursor := l.cursor.skip n }

/-- Says whether a key may begin next. -/
def allowKey (l : Lexer) (b : Bool) : Lexer :=
  { l with keyAllowed := b }

/-- Ends the blocks that are indented further than a column. -/
def closeBlocks (column : Int) (l : Lexer) : Lexer :=
  if l.isInline then l
  else
    let open_ := l.indents.takeWhile (column < ·)
    { l with
      indents := l.indents.drop open_.length
      tokens := l.tokens ++ Array.replicate open_.length .blockEnd }

/-- Begins a block at a column if it is indented further than the innermost one. -/
def openBlock? (l : Lexer) (column : Nat) : Option Lexer :=
  if l.indent < column then some { l with indents := (column : Int) :: l.indents } else none

/-- Forgets the candidate at the depth of the next character; a key that is required may not lack. -/
def dropCandidate (l : Lexer) : Option Lexer :=
  match l.candidates.lookup l.depth with
  | some c =>
    if c.required then none
    else some { l with candidates := l.candidates.filter fun (d, _) => d != l.depth }
  | none => some l

/-- The furthest that the colon of a key may be behind its beginning. -/
def keyReach : Nat := 1024

/-- Forgets the candidates that no colon can belong to any more. -/
def dropStale (l : Lexer) : Option Lexer :=
  let place := l.cursor.place
  let isStale (c : Candidate) : Bool :=
    c.place.line != place.line || keyReach < place.index - c.place.index
  if l.candidates.any fun (_, c) => isStale c && c.required then none
  else some { l with candidates := l.candidates.filter fun (_, c) => !isStale c }

/-- Remembers that a key could begin here. -/
def addCandidate (l : Lexer) : Option Lexer :=
  if l.keyAllowed then do
    let required := !l.isInline && l.indent == l.column
    let l' ← l.dropCandidate
    return { l' with
      candidates := (l.depth, ⟨l.tokens.size, required, l.cursor.place⟩) :: l'.candidates }
  else some l

/-- Passes over blanks, comments and line breaks; the number bounds their lines. -/
def skipGaps : Nat → Lexer → Lexer
  | 0, l => l
  | fuel + 1, l =>
    let c := if l.cursor.place.index == 0 && l.cursor.startsWith "\ufeff" then l.cursor.next else l.cursor
    let (_, c) := c.span fun d => d == ' ' || (l.isInline && d == '\t')
    let c := if c.looksAt 0 (· == '#') then (c.span fun d => !Cursor.isBreak d).2 else c
    match c.lineBreak? with
    | some c => skipGaps fuel { l with cursor := c, keyAllowed := l.keyAllowed || !l.isInline }
    | none => { l with cursor := c }

/-- Adds an anchor, a reference or a tag. -/
def pushProperty (l : Lexer) (t : Token) (c : Cursor) : Option Lexer := do
  let l ← l.addCandidate
  return { (l.push t).allowKey false with cursor := c }

/-- Whether a character may stand in the name of an anchor. -/
def isNameChar (c : Char) : Bool :=
  let n := c.toNat
  !",[]\x7b\x7d".contains c &&
    ((0x21 ≤ n && n ≤ 0x7e) || (0xa0 ≤ n && n != 0xfeff && n != 0xfffe && n != 0xffff))

/-- Reads an anchor or a reference. -/
def name (l : Lexer) (make : String → Token) : Option Lexer :=
  let (run, c) := l.cursor.next.span isNameChar
  if run.isEmpty then none
  else if c.endsWord 0 || c.looksAt 0 ("?:,[]\x7b\x7d%@\x60".contains ·) then
    l.pushProperty (make (String.ofList run)) c
  else none

/-- Reads a tag. -/
def tag (l : Lexer) : Option Lexer :=
  let (run, c) := l.cursor.next.span fun d =>
    !Cursor.isGap d && !Cursor.isBreak d && !(l.isInline && ",[]\x7b\x7d".contains d)
  if c.endsWord 0 || l.isInline then l.pushProperty (.tag (String.ofList run)) c else none

/-- Adds a text. -/
def pushText (l : Lexer) (text : List Char) (style : Style) (keyAllowed : Bool) (c : Cursor) : Lexer :=
  { (l.push (.scalar (String.ofList text) style)).allowKey keyAllowed with cursor := c }

/-- Reads a quoted text. -/
def quoted (l : Lexer) (double : Bool) : Option Lexer := do
  let l ← l.addCandidate
  let (text, c) ← Written.quoted double (l.cursor.rest.length + 1) l.cursor.next
  return l.pushText text (if double then .double else .single) false c

/-- Reads a block. -/
def block (l : Lexer) (folded : Bool) : Option Lexer := do
  let l ← l.dropCandidate
  let (text, c) ← Written.block folded l.indent l.cursor.next
  return l.pushText text (if folded then .folded else .literal) true c

/-- Reads a bare text. -/
def bare (l : Lexer) : Option Lexer := do
  let l ← l.addCandidate
  let (text, last) := Written.bare l.isInline l.indent (l.cursor.rest.length + 1) l.cursor
  return l.pushText text .plain last.crossed last.cursor

/-- Whether a bare text may begin here. -/
def mayBeginBare (l : Lexer) : Bool :=
  match l.cursor.peek? 0 with
  | none => false
  | some c =>
    !(Cursor.isBreak c || Cursor.isGap c || "-?:,[]\x7b\x7d#&*!|>'\"%@\x60".contains c ||
        c == '\u2028' || c == '\u2029') ||
      (!l.cursor.endsWord 1 && (c == '-' || c == ':' || (!l.isInline && c == '?'))) ||
      (c == ':' && l.isInline && !l.cursor.looksAt 1 Cursor.isGap)

/-- Whether a colon ends a key here. -/
def isValueMark (l : Lexer) : Bool :=
  l.cursor.endsWord 1 ||
    match l.brackets with
    | [] | .list :: _ => false
    | .map :: _ => l.tokens.back? != some .value

/-- Opens a bracket. -/
def openBracket (l : Lexer) (b : Bracket) (t : Token) : Option Lexer := do
  let l ← l.addCandidate
  return { (l.take t 1).allowKey true with brackets := b :: l.brackets }

/-- Closes a bracket. -/
def closeBracket (l : Lexer) (t : Token) : Option Lexer := do
  let l ← l.dropCandidate
  return { (l.take t 1).allowKey false with brackets := l.brackets.tail }

/-- Begins a block for an entry or a key that is marked here, if it is the first of its block. -/
def enterBlock (l : Lexer) (t : Token) : Option Lexer :=
  if l.isInline then some l
  else if !l.keyAllowed then none
  else some ((l.openBlock? l.column).elim l fun l => l.push t)

/-- Reads the mark of an entry of a list. -/
def entryMark (l : Lexer) : Option Lexer := do
  let l ← l.enterBlock .blockListStart
  let l ← (l.allowKey true).dropCandidate
  return l.take .blockEntry 1

/-- Reads the mark of a key. -/
def keyMark (l : Lexer) : Option Lexer := do
  let l ← l.enterBlock .blockMapStart
  let l ← (l.allowKey !l.isInline).dropCandidate
  return l.take .key 1

/-- Marks the key at a candidate. -/
def markKey (l : Lexer) (c : Candidate) : Lexer :=
  let (front, back) := (l.tokens.toList.take c.token, l.tokens.toList.drop c.token)
  let (l, marks) :=
    if l.isInline then (l, [Token.key])
    else
      match l.openBlock? c.place.column with
      | some l => (l, [.blockMapStart, .key])
      | none => (l, [.key])
  { l with tokens := (front ++ marks ++ back).toArray }

/-- Reads the colon behind a key. -/
def valueMark (l : Lexer) : Option Lexer :=
  match l.candidates.lookup l.depth with
  | some c =>
    let l := { l with candidates := l.candidates.filter fun (d, _) => d != l.depth }
    some (((l.markKey c).allowKey false).take .value 1)
  | none => do
    let l ← l.enterBlock .blockMapStart
    let l ← (l.allowKey !l.isInline).dropCandidate
    return l.take .value 1

/-- Ends the document that is being read. -/
def leaveDocument (l : Lexer) : Option Lexer := do
  return (← (l.closeBlocks (-1)).dropCandidate).allowKey false

/-- Reads the next token, given its first character. -/
def tokenAt (l : Lexer) (c : Char) : Option Lexer := do
  let cursor := l.cursor
  if cursor.place.column == 0 && c == '%' then
    let l ← l.leaveDocument
    return { l.push .directive with cursor := (cursor.span fun d => !Cursor.isBreak d).2 }
  else if cursor.place.column == 0 && cursor.atMarker then
    let l ← l.leaveDocument
    return l.take (if c == '-' then .documentStart else .documentEnd) 3
  else if c == '[' then l.openBracket .list .flowListStart
  else if c == '{' then l.openBracket .map .flowMapStart
  else if c == ']' then l.closeBracket .flowListEnd
  else if c == '}' then l.closeBracket .flowMapEnd
  else if c == ',' then
    let l ← (l.allowKey true).dropCandidate
    return l.take .flowEntry 1
  else if c == '-' && cursor.endsWord 1 then l.entryMark
  else if c == '?' && (l.isInline || cursor.endsWord 1) then l.keyMark
  else if c == ':' && l.isValueMark then l.valueMark
  else if c == '*' then l.name .reference
  else if c == '&' then l.name .anchor
  else if c == '!' then l.tag
  else if c == '|' && !l.isInline then l.block false
  else if c == '>' && !l.isInline then l.block true
  else if c == '\'' then l.quoted false
  else if c == '"' then l.quoted true
  else if l.mayBeginBare then l.bare
  else none

/-- Reads tokens up to the end of the text; each step passes over a character. -/
def run : Nat → Lexer → Option Lexer
  | 0, _ => none
  | fuel + 1, l => do
    let l ← (l.skipGaps (l.cursor.rest.length + 1)).dropStale
    let l := l.closeBlocks l.column
    match l.cursor.peek? 0 with
    | none => l.leaveDocument
    | some c => run fuel (← l.tokenAt c)

/-- Whether a character may stand in a document. -/
def isAllowed (c : Char) : Bool :=
  let n := c.toNat
  n == 0x09 || n == 0x0a || n == 0x0d || (0x20 ≤ n && n ≤ 0x7e) || n == 0x85 ||
    (0xa0 ≤ n && n != 0xfffe && n != 0xffff)

end Lexer

/-- The tokens of a document. -/
def tokens? (text : String) : Option (List Token) := do
  let cs := text.toList
  if cs.all Lexer.isAllowed then
    let l ← Lexer.run (cs.length + 1) ⟨⟨cs, ⟨0, 0, 0⟩⟩, [], [], true, [], #[]⟩
    return l.tokens.toList
  else none

end ProbeWeave.Yaml
