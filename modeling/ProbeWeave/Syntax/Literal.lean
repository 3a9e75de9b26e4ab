import ProbeWeave.Syntax.Lexer

/-!
# Literals of texts and bytes

What a literal stands for. Escapes are read into code points; a formatted text is cut into
literal pieces and replacement fields, whose expressions are handed on as text with the place
where it starts.

The expression of a field may hold neither a backslash nor a comment, brackets in it are
balanced, and fields nest in format specifications two levels deep.
-/

namespace ProbeWeave.Syntax

namespace Literal

/-- A piece of a formatted text. -/
inductive Piece where
  | literal (points : List Nat)
  | field (source : List Char) (start : Position) (conversion : Option Conversion)
      (format : Option (List Piece))

/-- What a single literal stands for. -/
inductive Content where
  | text (points : List Nat)
  | bytes (values : List Nat)
  | template (pieces : List Piece)

/-! ### Escapes -/

/-- The character of an escape of one letter. -/
def letterEscape? (c : Char) : Option Nat :=
  match c with
  | '\\' => some 0x5c
  | '\'' => some 0x27
  | '"' => some 0x22
  | 'a' => some 7
  | 'b' => some 8
  | 'f' => some 12
  | 'n' => some 10
  | 'r' => some 13
  | 't' => some 9
  | 'v' => some 11
  | _ => none

/-- Whether a character is an octal digit. -/
def isOctal (c : Char) : Bool :=
  '0' ≤ c && c ≤ '7'

/-- The value of exactly `count` hexadecimal digits and what follows. -/
def hexNumber? (count : Nat) (cs : List Char) : Option (Nat × List Char) :=
  let digits := cs.take count
  if digits.length == count && digits.all Lexer.isHexDigit then
    some (Lexer.valueOfDigits 16 digits, cs.drop count)
  else none

/--
Reads the escapes of a text, or of bytes if `wide` is false, given a bound on its length. A
backslash before any other character stands for itself, and one before a line break joins the
lines.
-/
def decodeWithin (wide : Bool) : Nat → List Char → Option (List Nat)
  | 0, _ => some []
  | _ + 1, [] => some []
  | n + 1, '\\' :: '\n' :: rest => decodeWithin wide n rest
  | n + 1, '\\' :: c :: rest =>
    match letterEscape? c with
    | some point => (decodeWithin wide n rest).map (point :: ·)
    | none =>
      if isOctal c then
        let digits := (c :: rest.take 2).takeWhile isOctal
        let value := Lexer.valueOfDigits 8 digits
        (decodeWithin wide n (rest.drop (digits.length - 1))).map
          ((if wide then value else value % 256) :: ·)
      else if c == 'x' then escape (hexNumber? 2 rest) fun rest => decodeWithin wide n rest
      else if wide && c == 'u' then escape (hexNumber? 4 rest) fun rest => decodeWithin wide n rest
      else if wide && c == 'U' then
        escape ((hexNumber? 8 rest).filter (·.1 < 0x110000)) fun rest => decodeWithin wide n rest
      else if wide && c == 'N' then none
      else (decodeWithin wide n rest).map (0x5c :: c.toNat :: ·)
  | n + 1, c :: rest => (decodeWithin wide n rest).map (c.toNat :: ·)
where
  /-- Goes on behind a numeric escape, if it is one. -/
  escape (number : Option (Nat × List Char)) (decode : List Char → Option (List Nat)) :
      Option (List Nat) :=
    number.bind fun (value, rest) => (decode rest).map (value :: ·)

/-- The code points of a text with escapes. -/
def decodeText (raw : Bool) (cs : List Char) : Option (List Nat) :=
  if raw then some (cs.map Char.toNat) else decodeWithin true cs.length cs

/-- The values of bytes with escapes; only characters of ASCII may be written. -/
def decodeBytes (raw : Bool) (cs : List Char) : Option (List Nat) :=
  if cs.any (128 ≤ ·.toNat) then none
  else if raw then some (cs.map Char.toNat)
  else decodeWithin false cs.length cs

/-! ### Formatted texts -/

/--
The literal text in front of a brace: the text, whether a doubled brace ends it, and what
follows. At the outermost level a doubled brace stands for one, and a single closing brace is
an error.
-/
def literalRun (raw : Bool) (outermost : Bool) :
    List Char → Option (List Char × Bool × List Char)
  | [] => some ([], false, [])
  | '\\' :: c :: rest =>
    if !raw && (c == '\x7b' || c == '\x7d') then brace ['\\'] c rest
    else if raw then cons '\\' (literalRun raw outermost (c :: rest))
    else cons '\\' (cons c (literalRun raw outermost rest))
  | c :: rest =>
    if c == '\x7b' || c == '\x7d' then brace [] c rest
    else cons c (literalRun raw outermost rest)
where
  /-- Puts a character in front of the text. -/
  cons (c : Char) (r : Option (List Char × Bool × List Char)) :
      Option (List Char × Bool × List Char) :=
    r.map fun (text, doubled, rest) => (c :: text, doubled, rest)
  /-- Stops at a brace. -/
  brace (before : List Char) (c : Char) (rest : List Char) :
      Option (List Char × Bool × List Char) :=
    if outermost && rest.head? == some c then some (before ++ [c], true, rest.tail)
    else if outermost && c == '\x7d' then none
    else some (before, false, c :: rest)

/-- Whether two characters are a comparison, which ends no field. -/
def isComparison (c d : Char) : Bool :=
  d == '=' && (c == '!' || c == '=' || c == '<' || c == '>')

/-- What a scan of the expression of a field knows between two characters. -/
structure FieldScan where
  /-- How many characters belong to the token before them. -/
  skip : Nat
  /-- The open brackets, innermost first. -/
  opened : List Char
  /-- The quote of the text that the scan is in, and whether it is a triple one. -/
  quote : Option (Char × Bool)

/--
The expression of a field and what follows, which begins with the character that ends it.
-/
def fieldText (scan : FieldScan) : List Char → Option (List Char × List Char)
  | [] => none
  | c :: rest =>
    let go (scan : FieldScan) := (fieldText scan rest).map fun (text, rest) => (c :: text, rest)
    if 0 < scan.skip then go { scan with skip := scan.skip - 1 }
    else if c == '\\' then none
    else
      let triples := rest.take 2 == [c, c]
      match scan.quote with
      | some (q, triple) =>
        if c != q then go scan
        else if !triple then go { scan with quote := none }
        else if triples then go { scan with quote := none, skip := 2 }
        else go scan
      | none =>
        if c == '\'' || c == '"' then
          go { scan with quote := some (c, triples), skip := if triples then 2 else 0 }
        else if c == '(' || c == '[' || c == '\x7b' then
          if Lexer.bracketLimit ≤ scan.opened.length then none
          else go { scan with opened := c :: scan.opened }
        else if c == '#' then none
        else if scan.opened.isEmpty && rest.head?.any (isComparison c) then
          go { scan with skip := 1 }
        else if scan.opened.isEmpty && (c == '!' || c == ':' || c == '\x7d' || c == '=') then
          some ([], c :: rest)
        else if c == ')' || c == ']' || c == '\x7d' then
          match scan.opened with
          | o :: outer => if Lexer.closingOf o == c then go { scan with opened := outer } else none
          | [] => none
        else go scan

/-- The blanks that may surround the expression of a field. -/
def isFieldBlank (c : Char) : Bool :=
  c == ' ' || c == '\t' || c == '\n' || c == '\x0c'

/-- The conversion that a letter names. -/
def conversion? (c : Char) : Option Conversion :=
  match c with
  | 's' => some .str
  | 'r' => some .repr
  | 'a' => some .ascii
  | _ => none

/--
What a field that ends with an equals sign shows of itself, its expression up to the blanks behind
the sign, and what follows.
-/
def shownText (source : List Char) : List Char → List Char × List Char
  | '=' :: rest =>
    let isSpace (c : Char) := isFieldBlank c || c == '\r' || c == '\x0b'
    (source ++ '=' :: rest.takeWhile isSpace, rest.dropWhile isSpace)
  | rest => ([], rest)

/-- The conversion of a field, if one is named, and what follows. -/
def conversionPart (position : Position) :
    List Char → Option (Option Conversion × Position × List Char)
  | '!' :: c :: rest =>
    (conversion? c).map fun conversion => (some conversion, Lexer.advance position ['!', c], rest)
  | rest => some (none, position, rest)

/-- The format of a field, if there is one, and what follows; `specification` reads its pieces. -/
def formatPart (specification : Position → List Char → Option (List Piece × Position × List Char))
    (position : Position) : List Char → Option (Option (List Piece) × Position × List Char)
  | ':' :: rest =>
    (specification (Lexer.advance position [':']) rest).map fun (pieces, position, rest) =>
      (some pieces, position, rest)
  | rest => some (none, position, rest)

/-- The pieces of a field behind its opening brace, up to the closing one, which is passed. -/
def fieldPieces (specification : Position → List Char → Option (List Piece × Position × List Char))
    (start : Position) (cs : List Char) : Option (List Piece × Position × List Char) := do
  let (source, rest) ← fieldText ⟨0, [], none⟩ cs
  if source.all isFieldBlank then none
  else
    let (shown, rest) := shownText source rest
    let position := Lexer.advance (Lexer.advance start source) (shown.drop source.length)
    let (conversion, position, rest) ← conversionPart position rest
    let (format, position, rest) ← formatPart specification position rest
    match rest with
    | '\x7d' :: rest =>
      let conversion :=
        if !shown.isEmpty && format.isNone && conversion.isNone then some .repr else conversion
      some ([.literal (shown.map Char.toNat), .field source start conversion format],
        Lexer.advance position ['\x7d'], rest)
    | _ => none

/--
The pieces of a formatted text from a position on, given a bound on its length; `level` counts
the format specifications around it. Below the outermost level the text ends in front of a
closing brace.
-/
def template (raw : Bool) : Nat → Nat → Position → List Char →
    Option (List Piece × Position × List Char)
  | 0, _, _, _ => none
  | n + 1, level, position, cs => do
    let (text, doubled, rest) ← literalRun raw (level == 0) cs
    let points ← decodeText raw (if raw then text else closeEscape text)
    let position := Lexer.advance position (cs.take (cs.length - rest.length))
    if doubled then
      let (pieces, position, rest) ← template raw n level position rest
      some (.literal points :: pieces, position, rest)
    else
      match rest with
      | [] => some ([.literal points], position, [])
      | '\x7d' :: _ => some ([.literal points], position, rest)
      | _ :: inner =>
        if 2 ≤ level then none
        else
          let (field, position, rest) ←
            fieldPieces (template raw n (level + 1)) (Lexer.advance position ['\x7b']) inner
          let (pieces, position, rest) ← template raw n level position rest
          some (.literal points :: (field ++ pieces), position, rest)
where
  /-- A backslash in front of a brace stands for itself. -/
  closeEscape (text : List Char) : List Char :=
    if text.reverse.takeWhile (· == '\\') |>.length |> (· % 2 == 1) then text ++ ['\\'] else text

/-! ### Whole literals -/

/-- Cuts a literal into its mark, the width of its quotes and what is between them. -/
def split (literal : List Char) : List Char × Nat × List Char :=
  let isQuote (c : Char) := c == '"' || c == '\''
  let mark := literal.takeWhile (!isQuote ·)
  let quoted := literal.dropWhile (!isQuote ·)
  let width :=
    match quoted with
    | a :: b :: c :: _ => if a == b && b == c then 3 else 1
    | _ => 1
  let body := quoted.drop width
  (mark, width, body.take (body.length - width))

/-- What a literal that starts at a position stands for. -/
def content (start : Position) (literal : List Char) : Option Content := do
  let (mark, width, body) := split literal
  let has (c : Char) := mark.any (·.toLower == c)
  let raw := has 'r'
  if has 'f' then
    let position := Lexer.advance start (literal.take (mark.length + width))
    let (pieces, _, rest) ← template raw (body.length + 1) 0 position body
    if rest.isEmpty then some (.template pieces) else none
  else if has 'b' then (decodeBytes raw body).map .bytes
  else (decodeText raw body).map .text

/-- Whether a literal carries the mark of a text of Unicode characters. -/
def hasUnicodeMark (literal : List Char) : Bool :=
  literal.head? == some 'u'

end Literal

end ProbeWeave.Syntax
