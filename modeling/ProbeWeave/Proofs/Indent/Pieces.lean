import Mathlib
import ProbeWeave.Syntax.Lexer
import ProbeWeave.Weaving.Indent

/-! # The pieces of code

Code is a row of pieces: texts, comments, joints between lines and single signs. What makes a piece
is said of its characters, over as many lines as they take; neither a scan nor a count of lines has a
part in it. Line breaks are newlines here.

The letters in front of a text that belong to it depend on the words and numbers there, which are not
told apart. A text may be taken with any mark that stands in front of it or with none, so code that
holds marked texts has several rows.
-/

namespace ProbeWeave.Weaving.Indent

/-- Whether a character opens and closes texts. -/
def IsQuote (c : Char) : Prop :=
  c = '"' ∨ c = '\''

instance : DecidablePred IsQuote := fun _ => inferInstanceAs (Decidable (_ ∨ _))

/-! ### Texts -/

/-- Characters of one line that leave a text between single quotes open. A backslash takes the
character behind it along. -/
inductive Inner (quote : Char) : List Char → Prop where
  | nil : Inner quote []
  | plain {c : Char} {cs : List Char} (other : c ≠ quote) (unescaped : c ≠ '\\') (within : c ≠ '\n')
      (inner : Inner quote cs) : Inner quote (c :: cs)
  | escaped {c : Char} {cs : List Char} (within : c ≠ '\n') (inner : Inner quote cs) :
      Inner quote ('\\' :: c :: cs)

/-- The end of a text between single quotes, from the start of a later line on. Every line but the
last ends with a backslash, and here it makes no difference whether that one is escaped. -/
inductive LaterTail (quote : Char) : List Char → Prop where
  | closed {cs : List Char} (inner : Inner quote cs) : LaterTail quote (cs ++ [quote])
  | joined {cs tail : List Char} (inner : Inner quote cs) (later : LaterTail quote tail) :
      LaterTail quote (cs ++ '\\' :: '\n' :: tail)
  | escaped {cs tail : List Char} (inner : Inner quote cs) (last : cs.getLast? = some '\\')
      (later : LaterTail quote tail) : LaterTail quote (cs ++ '\n' :: tail)

/-- What stands behind the opening quote of a text between single quotes. -/
inductive SingleTail (quote : Char) : List Char → Prop where
  | closed {cs : List Char} (inner : Inner quote cs) : SingleTail quote (cs ++ [quote])
  | joined {cs tail : List Char} (inner : Inner quote cs) (later : LaterTail quote tail) :
      SingleTail quote (cs ++ '\\' :: '\n' :: tail)

/-- What stands behind the opening quotes of a text between triple quotes: everything up to the first
three quotes of which none is escaped. -/
inductive TripleTail (quote : Char) : List Char → Prop where
  | closed : TripleTail quote [quote, quote, quote]
  | plain {c : Char} {tail : List Char} (unescaped : c ≠ '\\')
      (within : ¬ [quote, quote, quote] <+: c :: tail) (behind : TripleTail quote tail) :
      TripleTail quote (c :: tail)
  | escaped {c : Char} {tail : List Char} (behind : TripleTail quote tail) :
      TripleTail quote ('\\' :: c :: tail)

/-- Whether every line break but the first stands behind a backslash. -/
def JoinsLines (cs : List Char) : Prop :=
  ∀ first middle last, cs = first ++ '\n' :: (middle ++ '\n' :: last) → middle.getLast? = some '\\'

/-- Whether some characters in front of `rest` are a text, its mark left aside. Two quotes with a third
one behind them are never an empty text. If lines have to be joined, triple quotes do not exempt from
it. -/
inductive IsText (strict : Bool) (rest : List Char) : List Char → Prop where
  | single {quote : Char} {tail : List Char} (opens : IsQuote quote) (behind : SingleTail quote tail)
      (two : ¬ [quote, quote] <+: tail ++ rest) : IsText strict rest (quote :: tail)
  | triple {quote : Char} {tail : List Char} (opens : IsQuote quote) (behind : TripleTail quote tail)
      (joins : strict = true → JoinsLines tail) : IsText strict rest (quote :: quote :: quote :: tail)

/-! ### Texts that break off -/

/-- Characters of one line that close an open text. -/
def Closing (quote : Char) (triple : Bool) (tail : List Char) : Prop :=
  if triple then TripleTail quote tail else ∃ cs, Inner quote cs ∧ tail = cs ++ [quote]

/-- Whether a line, its break left aside, leaves a text open. -/
def LeavesOpen (quote : Char) (triple : Bool) (line : List Char) : Prop :=
  '\n' ∉ line ∧ ∀ tail, Closing quote triple tail → ¬ tail <+: line

/-- The later lines of a text that breaks off, up to the first one that is not joined to the next. -/
inductive BreaksOff (quote : Char) (triple : Bool) (rest : List Char) : List Char → Prop where
  | here {line : List Char} (leaves : LeavesOpen quote triple line)
      (last : line.getLast? ≠ some '\\') : BreaksOff quote triple rest (line ++ ['\n'])
  | atEnd {line : List Char} (leaves : LeavesOpen quote triple line) (present : line ≠ [])
      (ends : rest = []) : BreaksOff quote triple rest line
  | later {line tail : List Char} (leaves : LeavesOpen quote triple line)
      (last : line.getLast? = some '\\') (behind : BreaksOff quote triple rest tail) :
      BreaksOff quote triple rest (line ++ '\n' :: tail)

/-- Whether some characters in front of `rest` are the lines of a text that breaks off. -/
inductive IsBroken (strict : Bool) (rest : List Char) : List Char → Prop where
  | single {quote : Char} {cs tail : List Char} (opens : IsQuote quote) (inner : Inner quote cs)
      (behind : BreaksOff quote false rest tail) :
      IsBroken strict rest (quote :: (cs ++ '\\' :: '\n' :: tail))
  | triple {quote : Char} {line tail : List Char} (opens : IsQuote quote) (joins : strict = true)
      (leaves : LeavesOpen quote true line) (behind : BreaksOff quote true rest tail) :
      IsBroken strict rest (quote :: quote :: quote :: (line ++ '\n' :: tail))

/-! ### Rows of pieces -/

/-- A piece of code. -/
inductive Piece where
  /-- A character of a word, a number or an operator, a blank, a line break, or a character that is
  none of the code's. -/
  | sign (c : Char)
  /-- A backslash that joins a line to the next one. -/
  | joint
  | comment (note : List Char)
  | text (mark quoted : List Char)
  /-- A text that breaks off. -/
  | broken (cs : List Char)
  deriving DecidableEq, Repr

namespace Piece

/-- The characters of a piece. -/
def chars : Piece → List Char
  | sign c => [c]
  | joint => ['\\', '\n']
  | comment note => '#' :: note
  | text mark quoted => mark ++ quoted
  | broken cs => cs

/-- The number of line breaks in a piece. -/
def breaks (piece : Piece) : Nat :=
  piece.chars.count '\n'

/-- Whether a piece may stand in front of `rest`. A quote is a sign if no text begins with it that is
closed on its line or joined to the next one. -/
def Stands (strict : Bool) (rest : List Char) : Piece → Prop
  | sign c =>
    if IsQuote c then
      ∀ cs, Inner c cs → ¬ cs ++ [c] <+: rest ∧ ¬ cs ++ ['\\', '\n'] <+: rest
    else if c = '\\' then rest.head? ≠ some '\n'
    else c ≠ '#'
  | joint => True
  | comment note => '\n' ∉ note ∧ (rest = [] ∨ rest.head? = some '\n')
  | text mark quoted => (mark = [] ∨ Syntax.Lexer.isStringMark mark = true) ∧ IsText strict rest quoted
  | broken cs => IsBroken strict rest cs

/-- Whether texts have to join their lines behind a piece. It comes with a text that breaks off and
goes with one of several lines. -/
def strictBehind (strict : Bool) : Piece → Bool
  | text _ quoted => strict && !quoted.contains '\n'
  | broken _ => true
  | _ => strict

end Piece

/-- Whether code is a row of pieces. -/
inductive Cut : Bool → List Char → List Piece → Prop where
  | nil {strict : Bool} : Cut strict [] []
  | cons {strict : Bool} {piece : Piece} {rest : List Char} {pieces : List Piece}
      (stands : piece.Stands strict rest) (behind : Cut (piece.strictBehind strict) rest pieces) :
      Cut strict (piece.chars ++ rest) (piece :: pieces)

/-- The row has every character of the code. -/
theorem Cut.flatMap_chars {strict : Bool} {cs : List Char} {pieces : List Piece}
    (cut : Cut strict cs pieces) : pieces.flatMap Piece.chars = cs := by
  induction cut with
  | nil => rfl
  | cons _ _ ih => rw [List.flatMap_cons, ih]

/-! ### Brackets and indentations -/

/-- How the brackets are nested behind a character, compared with in front of it. -/
def depth (c : Char) : Int :=
  if c = '(' ∨ c = '[' ∨ c = '\x7b' then 1 else if c = ')' ∨ c = ']' ∨ c = '\x7d' then -1 else 0

/-- Where on a line a piece begins. -/
inductive Spot where
  /-- At the front of a line that may begin a statement, behind blanks of some width. -/
  | margin (column : Nat)
  | inside
  /-- Right behind a joint. -/
  | joint
  deriving DecidableEq

/-- What stands open in front of a piece. -/
structure Place where
  spot : Spot
  /-- Open brackets less closed ones. -/
  level : Int
  /-- The indentations that are open, innermost first. -/
  columns : List Nat

namespace Place

/-- At the start of the code. -/
def start : Place :=
  ⟨.margin 0, 0, [0]⟩

/-- Behind a line break. A line between brackets begins no statement. -/
def nextLine (p : Place) : Place :=
  { p with spot := if p.level = 0 then .margin 0 else .inside }

/-- In the line that a place is on. If a statement begins there, its indentation has to be that of an
open one or deeper than all of them. -/
def entered (p : Place) : Option Place :=
  match p.spot with
  | .margin column => (adjust column p.columns).map fun columns => ⟨.inside, p.level, columns⟩
  | _ => some { p with spot := .inside }

/-- Behind a piece that stands in a line. -/
def behind (p : Place) : Piece → Place
  | .sign c => if c = '\n' then p.nextLine else { p with level := p.level + depth c }
  | .joint => { p with spot := .joint }
  | .broken _ => p.nextLine
  | .comment _ | .text _ _ => p

/-- Behind a piece. Blanks make the margin wider, and a line with nothing but blanks and a comment
has no indentation. -/
def step (p : Place) (piece : Piece) : Option Place :=
  match p.spot, piece with
  | .margin column, .sign ' ' => some { p with spot := .margin (column + 1) }
  | .margin column, .sign '\t' => some { p with spot := .margin ((column / 8 + 1) * 8) }
  | .margin _, .sign '\x0c' => some { p with spot := .margin 0 }
  | .margin _, .sign '\n' => some p.nextLine
  | .margin _, .comment _ => some { p with spot := .inside }
  | _, piece => p.entered.map (·.behind piece)

/-- Whether pieces from a place on keep the rules for brackets and indentations. At the end the
brackets are balanced and no line is joined to one that is not there. -/
def Fits : Place → List Piece → Prop
  | p, [] => p.level = 0 ∧ p.spot ≠ .joint
  | p, piece :: pieces => ∃ q, p.step piece = some q ∧ q.Fits pieces

end Place

/-- Whether code can be cut into pieces, and into these. -/
def Tokenized (code : List Char) (pieces : List Piece) : Prop :=
  Cut false code pieces ∧ Place.start.Fits pieces

/-! ### The lines of texts -/

/-- The first and the last line of a piece that begins on a line, if it is a text of several. -/
def Piece.span (number : Nat) : Piece → Option (Nat × Nat)
  | text mark quoted =>
    if (text mark quoted).breaks = 0 then none else some (number, number + (text mark quoted).breaks)
  | _ => none

/-- The texts of several lines, each as its first and last line. -/
def spans : Nat → List Piece → List (Nat × Nat)
  | _, [] => []
  | number, piece :: pieces => (piece.span number).toList ++ spans (number + piece.breaks) pieces

/-- The line behind some pieces, counted from 1. -/
def lineBehind (pieces : List Piece) : Nat :=
  1 + (pieces.flatMap Piece.chars).count '\n'

/-- Whether a line lies behind the first line of a text that reaches it. -/
def Continues (pieces : List Piece) (number : Nat) : Prop :=
  ∃ before mark quoted after, pieces = before ++ .text mark quoted :: after ∧
    lineBehind before < number ∧ number ≤ lineBehind (before ++ [.text mark quoted])

end ProbeWeave.Weaving.Indent
