import ProbeWeave.Text.Character
import ProbeWeave.Text.Identifier

/-!
# Wrapping text

A text is broken into lines of a width. It may be broken at blanks, behind a hyphen between two
parts of a word and around a dash of several hyphens. A word that is too long for any line is cut,
behind a hyphen if there is one.
-/

namespace ProbeWeave.Text

namespace Wrap

/-- The blanks that a line may be broken at. -/
def isBreakable (c : Char) : Bool :=
  c == ' ' || (0x09 ≤ c.toNat && c.toNat ≤ 0x0d)

/-- Whether a character belongs to words. -/
def isWordPart (c : Char) : Bool :=
  isIdentifierContinue c

/-- Whether a character belongs to words and is no digit. -/
def isLetter (c : Char) : Bool :=
  isWordPart c && !isDigit c

/-- Whether a dash may follow a character. -/
def endsWord (c : Char) : Bool :=
  isWordPart c || "!\"'&.,?".contains c

/-- Whether a dash stands before a word at the front of some characters. -/
def isDash (cs : List Char) : Bool :=
  2 ≤ (cs.takeWhile (· == '-')).length && (cs.dropWhile (· == '-')).head?.any isWordPart

/--
Whether a line may be broken behind a hyphen, given the characters before it, the nearest first, and
those behind it.
-/
def breaksBehindHyphen (before after : List Char) : Bool :=
  (match before with
  | a :: b :: rest => isLetter a && (isLetter b || (b == '-' && rest.head?.any isLetter))
  | _ => false) &&
  (match after with
  | a :: b :: rest => isLetter a && (isLetter b || (b == '-' && rest.head?.any isLetter))
  | _ => false)

/-- How a word goes on up to where it may be broken, and what follows. -/
def restOfWord (before : List Char) : List Char → List Char × List Char
  | [] => ([], [])
  | c :: rest =>
    if c == '-' && breaksBehindHyphen before rest then (['-'], rest)
    else if isBreakable c || (before.head?.any endsWord && isDash (c :: rest)) then ([], c :: rest)
    else
      let (word, rest) := restOfWord (c :: before) rest
      (c :: word, rest)

/-- The first piece that is not broken, and what follows. -/
def firstPiece (before : List Char) (c : Char) (rest : List Char) : List Char × List Char :=
  if isBreakable c then (c :: rest.takeWhile isBreakable, rest.dropWhile isBreakable)
  else if before.head?.any endsWord && isDash (c :: rest) then
    ((c :: rest).takeWhile (· == '-'), rest.dropWhile (· == '-'))
  else
    let (word, rest) := restOfWord (c :: before) rest
    (c :: word, rest)

/-- The pieces that are not broken; the number bounds their count. -/
def pieces : Nat → List Char → List Char → List (List Char)
  | 0, _, _ => []
  | _ + 1, _, [] => []
  | fuel + 1, before, c :: rest =>
    let (piece, rest) := firstPiece before c rest
    piece :: pieces fuel (piece.reverse ++ before) rest

/-- As many pieces as fit into some room, and the others. -/
def fill (room : Nat) : List (List Char) → List (List Char) × List (List Char)
  | [] => ([], [])
  | piece :: rest =>
    if piece.length ≤ room then
      let (line, rest) := fill (room - piece.length) rest
      (piece :: line, rest)
    else ([], piece :: rest)

/-- Where a piece is cut that does not fit into some room. -/
def cutPlace (room : Nat) (piece : List Char) : Nat :=
  let front := (piece.take room).reverse.dropWhile (· != '-')
  if front.tail.any (· != '-') then front.length else room

/-- Whether a piece consists of blanks. -/
def isGap (piece : List Char) : Bool :=
  piece.all isBlank

/-- Drops a gap at the end of a line. -/
def trimLine (line : List (List Char)) : List (List Char) :=
  if line.getLast?.any isGap then line.dropLast else line

/-- Puts pieces into lines; the number bounds the lines. -/
def layOut (width : Nat) : Nat → Bool → List (List Char) → List String
  | 0, _, _ => []
  | fuel + 1, started, all =>
    match if started && all.head?.any isGap then all.tail else all with
    | [] => []
    | all =>
      let (line, rest) := fill width all
      let (line, rest) :=
        match rest with
        | piece :: more =>
          if width < piece.length then
            let place := cutPlace (width - line.flatten.length) piece
            (line ++ [piece.take place], piece.drop place :: more)
          else (line, rest)
        | [] => (line, rest)
      match trimLine line with
      | [] => layOut width fuel started rest
      | line => String.ofList line.flatten :: layOut width fuel true rest

end Wrap

/-- A text with each run of blanks made one, and none at its ends. -/
def joinBlanks (s : String) : String :=
  let words := (s.toList.splitBy fun a b => Wrap.isBreakable a == Wrap.isBreakable b).map fun run =>
    if run.any Wrap.isBreakable then [' '] else run
  strip (String.ofList words.flatten)

/-- The lines of a text within a width. -/
def wrap (width : Nat) (s : String) : List String :=
  let cs := (joinBlanks s).toList
  Wrap.layOut width (2 * cs.length + 1) false (Wrap.pieces cs.length [] cs)

end ProbeWeave.Text
