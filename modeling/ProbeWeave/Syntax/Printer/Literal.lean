import ProbeWeave.Syntax.Tree
import ProbeWeave.Text.Quoted
import ProbeWeave.Number.Shortest

/-!
# Printing literals

Constants as they are written in source text. A text is usually written between the quote that
spares an escape. Inside a replacement field no backslash may stand, and a docstring is written
between triple quotes; there the first of several quotes that the text does not contain is used.
-/

namespace ProbeWeave.Syntax

namespace Printer

/-- What infinity is written as: a number too large for a double. -/
def infinityText : String := "1e309"

/-- The text of a double; an imaginary one shows no fraction of zero. -/
def doubleText (layout : Number.Layout) (bits : UInt64) : String :=
  match Number.valueOfBits bits with
  | .infinite _ => infinityText
  | _ => Number.shortestText layout bits

/-- The quotes of one line. -/
def shortQuotes : List (List Char) := [['\''], ['"']]

/-- The quotes of texts of several lines. -/
def longQuotes : List (List Char) := [['"', '"', '"'], ['\'', '\'', '\'']]

/-- A code point between quotes that need no escape themselves. -/
def freePoint (escapesBlanks : Bool) (c : Nat) : List Char :=
  if !escapesBlanks && (c == 0x0a || c == 0x09) then [Char.ofNat c]
  else if Text.needsEscape c then Text.escapePoint c
  else [Char.ofNat c]

/-- Whether one list of characters occurs in another. -/
def occursIn (part : List Char) : List Char → Bool
  | [] => part.isEmpty
  | c :: cs => part.isPrefixOf (c :: cs) || occursIn part cs

/--
The characters of a text and the quotes that may be put around them, best first. Quotes that
occur in the text are out, short ones also if the text has several lines. If the only quotes
left are those the text ends with, its last character is escaped; if none are left, the text is
escaped for the usual quote.
-/
def betweenQuotes (quotes : List (List Char)) (escapesBlanks : Bool) (points : List Nat) :
    List Char × List (List Char) :=
  let escaped := points.flatMap (freePoint escapesBlanks)
  let fitting := if escaped.contains '\n' then quotes.filter (longQuotes.contains ·) else quotes
  let fitting := fitting.filter (!occursIn · escaped)
  if fitting.isEmpty then
    let text := (Text.quotedPoints points).toList
    let quote := text.take 1
    (text.tail.dropLast, [(quotes.find? (occursIn quote ·)).getD quote])
  else
    match escaped.getLast? with
    | none => (escaped, fitting)
    | some last =>
      let clashes (q : List Char) : Bool := q.head? == some last
      let sorted := fitting.filter (!clashes ·) ++ fitting.filter clashes
      if sorted.head?.any clashes then (escaped.dropLast ++ ['\\', last], sorted)
      else (escaped, sorted)

/-- A text between the best of the given quotes. -/
def withQuotes (quotes : List (List Char)) (points : List Nat) : String :=
  let (text, quotes) := betweenQuotes quotes false points
  let quote := quotes.headD []
  String.ofList (quote ++ text ++ quote)

/-- A constant; `plain` asks for a text without backslashes, if there is one. -/
def constantText (plain : Bool) : Constant → String
  | .none => "None"
  | .true => "True"
  | .false => "False"
  | .ellipsis => "..."
  | .int value => toString value
  | .float bits => doubleText ⟨true⟩ bits
  | .imaginary bits => doubleText ⟨false⟩ bits ++ "j"
  | .text points mark =>
    (if mark then "u" else "") ++
      if plain then withQuotes (shortQuotes ++ longQuotes) points else Text.quotedPoints points
  | .bytes values => Text.quotedBytes values

/--
A formatted text from its pieces, each with a flag that says whether it is literal. Blanks of
several lines are escaped in literal pieces only.
-/
def formattedText (pieces : List (List Nat × Bool)) : String :=
  let (text, quotes) := pieces.foldl
    (fun (text, quotes) (points, isLiteral) =>
      let (part, quotes) := betweenQuotes quotes isLiteral points
      (text ++ part, quotes))
    ([], shortQuotes ++ longQuotes)
  let quote := quotes.headD []
  String.ofList ('f' :: (quote ++ text ++ quote))

/-- A formatted text without backslashes, if there is one. -/
def plainFormattedText (pieces : List (List Nat × Bool)) : String :=
  "f" ++ withQuotes (shortQuotes ++ longQuotes) (pieces.flatMap (·.1))

/-- Doubles the braces of the literal part of a formatted text. -/
def doubleBraces (points : List Nat) : List Nat :=
  points.flatMap fun c => if c == 0x7b || c == 0x7d then [c, c] else [c]

end Printer

end ProbeWeave.Syntax
