import ProbeWeave.Text.Printable

/-!
# Quoted texts

How a text is written between quotes so that it can be read back. Code points are used instead
of characters, because a literal can hold a surrogate. Printable characters stand for
themselves; the backslash, the quote in use and everything else are written as escapes, the
shortest of two, four and eight hexadecimal digits.
-/

namespace ProbeWeave.Text

/-- The code points of a text. -/
def points (s : String) : List Nat :=
  s.toList.map Char.toNat

/-- A hexadecimal digit in lower case. -/
def hexDigit (n : Nat) : Char :=
  if n < 10 then Char.ofNat (n + 48) else Char.ofNat (n + 87)

/-- A number in hexadecimal with a fixed number of digits. -/
def hexFixed : Nat → Nat → List Char
  | 0, _ => []
  | width + 1, n => hexFixed width (n / 16) ++ [hexDigit (n % 16)]

/-- The numeric escape of a code point. -/
def numericEscape (c : Nat) : List Char :=
  if c < 0x100 then '\\' :: 'x' :: hexFixed 2 c
  else if c < 0x10000 then '\\' :: 'u' :: hexFixed 4 c
  else '\\' :: 'U' :: hexFixed 8 c

/-- The escape of a code point that does not stand for itself. -/
def escapePoint (c : Nat) : List Char :=
  if c == 0x5c then ['\\', '\\']
  else if c == 0x09 then ['\\', 't']
  else if c == 0x0a then ['\\', 'n']
  else if c == 0x0d then ['\\', 'r']
  else numericEscape c

/-- Whether a code point needs an escape between any quotes. -/
def needsEscape (c : Nat) : Bool :=
  c == 0x5c || !isPrintable c

/-- The quote for a text: the double quote only where it spares an escape. -/
def preferredQuote (cs : List Nat) : Char :=
  if cs.contains 0x27 && !cs.contains 0x22 then '"' else '\''

/-- What stands between the quotes for one code point. -/
def quotePoint (quote : Char) (c : Nat) : List Char :=
  if c == quote.toNat then ['\\', quote]
  else if needsEscape c then escapePoint c
  else [Char.ofNat c]

/-- A list of code points between quotes. -/
def quotedPoints (cs : List Nat) : String :=
  let quote := preferredQuote cs
  String.ofList (quote :: (cs.flatMap (quotePoint quote) ++ [quote]))

/-- A text between quotes. -/
def quoted (s : String) : String :=
  quotedPoints (points s)

/-- What stands between the quotes for one byte: bytes beyond ASCII are always escaped. -/
def quoteByte (quote : Char) (b : Nat) : List Char :=
  if b == quote.toNat then ['\\', quote]
  else if b == 0x5c || b == 0x09 || b == 0x0a || b == 0x0d then escapePoint b
  else if b < 0x20 || 0x7f ≤ b then numericEscape b
  else [Char.ofNat b]

/-- Bytes between quotes, marked as bytes. -/
def quotedBytes (bs : List Nat) : String :=
  let quote := preferredQuote bs
  String.ofList ('b' :: quote :: (bs.flatMap (quoteByte quote) ++ [quote]))

end ProbeWeave.Text
