import ProbeWeave.Yaml.Node

/-!
# Tokens of a document

The pieces that a document is read as. Where indentation gives the structure, tokens for the
beginning and the end of a block stand for it, and a key is marked in front even where nothing was
written there.
-/

namespace ProbeWeave.Yaml

/-- A token. -/
inductive Token where
  | directive
  | documentStart
  | documentEnd
  | blockListStart
  | blockMapStart
  | blockEnd
  | flowListStart
  | flowListEnd
  | flowMapStart
  | flowMapEnd
  | blockEntry
  | flowEntry
  | key
  | value
  | reference (name : String)
  | anchor (name : String)
  | tag (name : String)
  | scalar (s : String) (style : Style)
  deriving DecidableEq, Inhabited, Repr

/-- A place in a document. -/
structure Place where
  index : Nat
  line : Nat
  column : Nat
  deriving DecidableEq, Inhabited, Repr

/-- What is left of a document, and where it begins. -/
structure Cursor where
  rest : List Char
  place : Place
  deriving Inhabited, Repr

namespace Cursor

/-- Whether a character ends a line. -/
def isBreak (c : Char) : Bool :=
  c == '\n' || c == '\r' || c == '\u0085'

/-- Whether a character is a blank within a line. -/
def isGap (c : Char) : Bool :=
  c == ' ' || c == '\t'

/-- The character at a distance, if there is one. -/
def peek? (c : Cursor) (n : Nat) : Option Char :=
  c.rest[n]?

/-- Whether the character at a distance satisfies a test. -/
def looksAt (c : Cursor) (n : Nat) (test : Char → Bool) : Bool :=
  (c.peek? n).any test

/-- Whether a line break or the end of the document is at a distance. -/
def endsLine (c : Cursor) (n : Nat) : Bool :=
  (c.peek? n).all isBreak

/-- Whether a blank, a line break or the end of the document is at a distance. -/
def endsWord (c : Cursor) (n : Nat) : Bool :=
  (c.peek? n).all fun d => isBreak d || isGap d

/-- Whether some characters come next. -/
def startsWith (c : Cursor) (s : String) : Bool :=
  s.toList.isPrefixOf c.rest

/-- Passes over one character. -/
def next (c : Cursor) : Cursor :=
  match c.rest with
  | [] => c
  | d :: rest =>
    let p := c.place
    if isBreak d && !(d == '\r' && rest.head? == some '\n') then
      ⟨rest, p.index + 1, p.line + 1, 0⟩
    else ⟨rest, p.index + 1, p.line, if d == '\ufeff' then p.column else p.column + 1⟩

/-- Passes over some characters. -/
def skip (c : Cursor) : Nat → Cursor
  | 0 => c
  | n + 1 => c.next.skip n

/-- The characters up to the first that fails a test, and what follows. -/
def span (c : Cursor) (test : Char → Bool) : List Char × Cursor :=
  let run := c.rest.takeWhile test
  (run, c.skip run.length)

/-- Passes over a line break, which counts as one newline however it is written. -/
def lineBreak? (c : Cursor) : Option Cursor :=
  if c.startsWith "\r\n" then some (c.skip 2)
  else if c.looksAt 0 isBreak then some c.next
  else none

/-- Whether the marker of a new document or of the end of one comes next. -/
def atMarker (c : Cursor) : Bool :=
  (c.startsWith "---" || c.startsWith "...") && c.endsWord 3

end Cursor

end ProbeWeave.Yaml
