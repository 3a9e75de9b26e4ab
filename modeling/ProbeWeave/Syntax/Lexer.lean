import ProbeWeave.Syntax.Token
import ProbeWeave.Text.Identifier
import ProbeWeave.Text.Compatibility
import ProbeWeave.Text.Lines
import ProbeWeave.Number.Whole

/-!
# From text to tokens

`lexemes` cuts a source file into tokens. Line breaks are first made newlines. At the start of
a line outside of brackets the indentation is measured twice, with tabs as wide as eight blanks
and as one; both measures have to agree on which lines are indented further.

Every step consumes a character or ends a line, so the number of characters bounds the steps.
-/

namespace ProbeWeave.Syntax

namespace Lexer

/-- Whether a character may stand in a word; those beyond ASCII are checked afterwards. -/
def isWordChar (c : Char) : Bool :=
  c.isAlphanum || c == '_' || 128 ≤ c.toNat

/-- Whether a character may begin a word. -/
def isWordStart (c : Char) : Bool :=
  isWordChar c && !c.isDigit

/-- The position behind a run of characters. -/
def advance (p : Position) (cs : List Char) : Position :=
  cs.foldl (fun p c => if c == '\n' then ⟨p.line + 1, 0⟩ else ⟨p.line, p.column + 1⟩) p

/-! ### Numbers -/

/--
The digits at the front, with single underscores between them, and what follows. An underscore
that no digit follows is an error.
-/
def digitRun (isDigit : Char → Bool) : List Char → Option (List Char × List Char)
  | '_' :: d :: rest =>
    if isDigit d then
      (digitRun isDigit (d :: rest)).map fun (digits, rest) => ('_' :: digits, rest)
    else none
  | ['_'] => none
  | c :: rest =>
    if isDigit c then (digitRun isDigit rest).map fun (digits, rest) => (c :: digits, rest)
    else some ([], c :: rest)
  | [] => some ([], [])

/-- The value of a hexadecimal digit in either case. -/
def digitValue (c : Char) : Nat :=
  if c.isDigit then c.toNat - 48
  else if 'a' ≤ c && c ≤ 'f' then c.toNat - 87
  else if 'A' ≤ c && c ≤ 'F' then c.toNat - 55
  else 0

/-- The value of digits in a base; underscores do not count. -/
def valueOfDigits (base : Nat) (digits : List Char) : Nat :=
  (digits.filter (· != '_')).foldl (fun n c => base * n + digitValue c) 0

/--
Whether a number may end here: a word may follow directly only if it begins like one of the
operators written as words.
-/
def mayEndNumber : List Char → Bool
  | 'a' :: 'n' :: 'd' :: _ | 'e' :: 'l' :: 's' :: 'e' :: _ | 'f' :: 'o' :: 'r' :: _
  | 'i' :: 'f' :: _ | 'i' :: 'n' :: _ | 'i' :: 's' :: _ | 'o' :: 'r' :: _
  | 'n' :: 'o' :: 't' :: _ => true
  | c :: _ => !isWordChar c
  | [] => true

/-- A number in a base that is a power of two, behind its mark. -/
def radixNumber (base : Nat) (isDigit : Char → Bool) (mark : List Char) (cs : List Char) :
    Option (List Char × Constant × List Char) := do
  let (digits, rest) ← digitRun isDigit cs
  if digits.isEmpty || !mayEndNumber rest || (rest.head?.any Char.isDigit) then none
  else some (mark ++ digits, .int (valueOfDigits base digits), rest)

/-- The exponent of a decimal number, if one is written: its text and its value. -/
def exponentPart : List Char → Option (List Char × Int × List Char)
  | e :: rest =>
    if e == 'e' || e == 'E' then
      match rest with
      | sign :: d :: _ =>
        if sign == '+' || sign == '-' then
          if d.isDigit then do
            let (digits, rest) ← digitRun Char.isDigit rest.tail
            let n : Int := valueOfDigits 10 digits
            some (e :: sign :: digits, if sign == '-' then -n else n, rest)
          else none
        else if sign.isDigit then do
          let (digits, rest) ← digitRun Char.isDigit rest
          some (e :: digits, valueOfDigits 10 digits, rest)
        else some ([], 0, e :: rest)
      | [d] =>
        if d.isDigit then some ([e, d], valueOfDigits 10 [d], [])
        else if d == '+' || d == '-' then none
        else some ([], 0, e :: rest)
      | [] => some ([], 0, e :: rest)
    else some ([], 0, e :: rest)
  | [] => some ([], 0, [])

/-- The digits in front of the point of a decimal number, of which there may be none. -/
def wholePart (cs : List Char) : Option (List Char × List Char) :=
  if cs.head? == some '.' then some ([], cs) else digitRun Char.isDigit cs

/-- The point of a decimal number, if there is one. -/
def pointPart : List Char → List Char × List Char
  | '.' :: rest => (['.'], rest)
  | rest => ([], rest)

/-- The digits behind the point of a decimal number, if there are any. -/
def fractionPart (pointed : Bool) (cs : List Char) : Option (List Char × List Char) :=
  if pointed && cs.head?.any Char.isDigit then digitRun Char.isDigit cs else some ([], cs)

/-- The value of a decimal number that is no imaginary one, if its digits are allowed. -/
def decimalValue (whole : List Char) (isWhole : Bool) (bits : UInt64) : Option Constant :=
  if isWhole then
    let value := valueOfDigits 10 whole
    if whole.head? == some '0' && value != 0 then none
    else if Number.digitLimit < (whole.filter (· != '_')).length then none
    else some (.int value)
  else some (.float bits)

/-- A decimal number: its text, its value and what follows. -/
def decimalNumber (cs : List Char) : Option (List Char × Constant × List Char) := do
  let (whole, rest) ← wholePart cs
  let (point, rest) := pointPart rest
  let (fraction, rest) ← fractionPart (!point.isEmpty) rest
  let (exponentText, exponent, rest) ← exponentPart rest
  let places := (fraction.filter (· != '_')).length
  let bits := Number.bitsOfDecimal (valueOfDigits 10 (whole ++ fraction)) (exponent - places)
  let text := whole ++ point ++ fraction ++ exponentText
  match rest with
  | 'j' :: rest => if mayEndNumber rest then some (text ++ ['j'], .imaginary bits, rest) else none
  | 'J' :: rest => if mayEndNumber rest then some (text ++ ['J'], .imaginary bits, rest) else none
  | rest =>
    if mayEndNumber rest then
      (decimalValue whole (point.isEmpty && exponentText.isEmpty) bits).map (text, ·, rest)
    else none

/-- Whether a character is a hexadecimal digit. -/
def isHexDigit (c : Char) : Bool :=
  c.isDigit || ('a' ≤ c && c ≤ 'f') || ('A' ≤ c && c ≤ 'F')

/-- A number: its text, its value and what follows. -/
def number (cs : List Char) : Option (List Char × Constant × List Char) :=
  match cs with
  | '0' :: mark :: rest =>
    if mark == 'x' || mark == 'X' then radixNumber 16 isHexDigit ['0', mark] rest
    else if mark == 'o' || mark == 'O' then
      radixNumber 8 (fun c => '0' ≤ c && c ≤ '7') ['0', mark] rest
    else if mark == 'b' || mark == 'B' then
      radixNumber 2 (fun c => c == '0' || c == '1') ['0', mark] rest
    else decimalNumber cs
  | _ => decimalNumber cs

/-! ### Texts -/

/-- The rest of a text up to its closing quotes, these included, and what follows. -/
def stringTail (quote : Char) (triple : Bool) : List Char → Option (List Char × List Char)
  | [] => none
  | '\\' :: c :: rest =>
    (stringTail quote triple rest).map fun (body, rest) => ('\\' :: c :: body, rest)
  | c :: rest =>
    if c == quote then
      if triple then
        match rest with
        | c₂ :: c₃ :: rest' =>
          if c₂ == quote && c₃ == quote then some ([c, c₂, c₃], rest')
          else (stringTail quote triple rest).map fun (body, rest) => (c :: body, rest)
        | _ => none
      else some ([c], rest)
    else if c == '\n' && !triple then none
    else (stringTail quote triple rest).map fun (body, rest) => (c :: body, rest)

/-- A text from its opening quote on: the literal and what follows. -/
def stringLiteral : List Char → Option (List Char × List Char)
  | q :: q₂ :: q₃ :: rest =>
    if q₂ == q && q₃ == q then
      (stringTail q true rest).map fun (body, rest) => (q :: q₂ :: q₃ :: body, rest)
    else if q₂ == q then some ([q, q₂], q₃ :: rest)
    else (stringTail q false (q₂ :: q₃ :: rest)).map fun (body, rest) => (q :: body, rest)
  | [q, q₂] => if q₂ == q then some ([q, q₂], []) else none
  | _ => none

/-- Whether a word in front of a quote belongs to the text. -/
def isStringMark (word : List Char) : Bool :=
  [['b'], ['r'], ['u'], ['f'], ['b', 'r'], ['r', 'b'], ['f', 'r'], ['r', 'f']].contains
    (word.map Char.toLower)

/-! ### Operators -/

/-- The operators, longer ones before those they begin with. -/
def operators : List (List Char) :=
  ["**=", "//=", ">>=", "<<=", "...", "!=", "%=", "&=", "**", "*=", "+=", "-=", "->", "//",
   "/=", ":=", "<<", "<=", "==", ">=", ">>", "@=", "^=", "|=", "%", "&", "(", ")", "*", "+", ",",
   "-", ".", "/", ":", ";", "<", "=", ">", "@", "[", "]", "^", "\x7b", "|", "\x7d", "~"].map
    String.toList

/-- The operator at the front and what follows. -/
def operator (cs : List Char) : Option (List Char × List Char) :=
  if cs.take 2 == ['<', '>'] then none
  else (operators.find? (·.isPrefixOf cs)).map fun op => (op, cs.drop op.length)

/-- The bracket that closes an opening one. -/
def closingOf (c : Char) : Char :=
  if c == '(' then ')' else if c == '[' then ']' else '\x7d'

/-- The deepest nesting of brackets. -/
def bracketLimit : Nat := 200

/-- The deepest nesting of blocks, the outermost level included. -/
def blockLimit : Nat := 100

/-- The open brackets behind an operator, unless it closes none or the wrong one. -/
def bracketsAfter (op : List Char) (opened : List Char) : Option (List Char) :=
  match op with
  | [c] =>
    if c == '(' || c == '[' || c == '\x7b' then
      if bracketLimit ≤ opened.length then none else some (c :: opened)
    else if c == ')' || c == ']' || c == '\x7d' then
      match opened with
      | o :: rest => if closingOf o == c then some rest else none
      | [] => none
    else some opened
  | _ => some opened

/-! ### Layout -/

/-- The two measures of an indentation: with wide tabs and with narrow ones. -/
structure Indentation where
  wide : Nat
  narrow : Nat
  deriving DecidableEq, Inhabited

/-- What the blanks at the start of a line amount to. -/
structure Margin where
  /-- The measure where the first continuation mark stood, or else where the text begins. -/
  indentation : Indentation
  /-- The blanks and continuation marks passed. -/
  passed : List Char
  rest : List Char

/--
Measures the start of a line. A form feed starts the measure anew. A backslash in front of a
line break joins the next line, and then the measure in front of the first such mark counts,
unless it is zero.
-/
def margin (now : Indentation) (marked : Nat) (passed : List Char) :
    List Char → Option Margin
  | ' ' :: rest => margin ⟨now.wide + 1, now.narrow + 1⟩ marked (' ' :: passed) rest
  | '\t' :: rest =>
    margin ⟨(now.wide / 8 + 1) * 8, now.narrow + 1⟩ marked ('\t' :: passed) rest
  | '\x0c' :: rest => margin ⟨0, 0⟩ marked ('\x0c' :: passed) rest
  | '\\' :: '\n' :: rest =>
    if rest.isEmpty then none
    else margin now (if marked == 0 then now.wide else marked) ('\n' :: '\\' :: passed) rest
  | '\\' :: _ => none
  | rest =>
    some ⟨if marked == 0 then now else ⟨marked, marked⟩, passed.reverse, rest⟩

/-- Closes blocks until one of at most the given width is reached. -/
def closeBlocks (width : Nat) : List Indentation → Nat × List Indentation
  | block :: outer =>
    if width < block.wide && !outer.isEmpty then
      let (count, blocks) := closeBlocks width outer
      (count + 1, blocks)
    else (0, block :: outer)
  | [] => (0, [])

/-- The layout tokens for a line's indentation and the blocks open afterwards. -/
def layout (blocks : List Indentation) (here : Indentation) :
    Except Breach (List Token × List Indentation) :=
  let block := blocks.headD ⟨0, 0⟩
  if here.wide == block.wide then
    if here.narrow == block.narrow then .ok ([], blocks) else .error .tabs
  else if block.wide < here.wide then
    if blockLimit ≤ blocks.length then .error .indentation
    else if here.narrow ≤ block.narrow then .error .tabs
    else .ok ([.indent], here :: blocks)
  else
    let (count, blocks) := closeBlocks here.wide blocks
    let block := blocks.headD ⟨0, 0⟩
    if here.wide != block.wide then .error .indentation
    else if here.narrow != block.narrow then .error .tabs
    else .ok (List.replicate count .dedent, blocks)

/-- What the lexer knows between two tokens. -/
structure State where
  position : Position
  /-- The open brackets, innermost first. -/
  brackets : List Char
  /-- The indentations of the open blocks, innermost first. -/
  blocks : List Indentation
  /-- Whether the next character begins a line. -/
  fresh : Bool

/-- A word: a name, a keyword or, in front of a quote, the mark of a text. -/
def wordToken (word : List Char) : Token :=
  let s := String.ofList word
  if !Text.isIdentifierChars word then .broken .invalid
  else if reservedWords.contains s then .keyword s
  else .name (Text.compatibilityForm s)

/-- The token at the front of a text that is neither blank nor a line break. -/
def nextToken (cs : List Char) : Option (Token × List Char × List Char) :=
  match cs with
  | [] => none
  | c :: rest =>
    if isWordStart c then
      let word := cs.takeWhile isWordChar
      let after := cs.dropWhile isWordChar
      if (after.head? == some '"' || after.head? == some '\'') && isStringMark word then
        (stringLiteral after).map fun (body, rest) => (.string (word ++ body), word ++ body, rest)
      else some (wordToken word, word, after)
    else if c.isDigit || (c == '.' && rest.head?.any Char.isDigit) then
      (number cs).map fun (text, value, rest) => (.number value, text, rest)
    else if c == '"' || c == '\'' then
      (stringLiteral cs).map fun (body, rest) => (.string body, body, rest)
    else (operator cs).map fun (op, rest) => (.operator (String.ofList op), op, rest)

/-- A token without extent. -/
def mark (token : Token) (position : Position) : Lexeme :=
  ⟨token, position, position.line⟩

/--
The tokens from inside a line on; `continued` goes on behind a token or a line. On a blank line
the line break is no token.
-/
def scanLine (continued : State → List Char → List Lexeme) (blank : Bool) (state : State)
    (cs : List Char) : List Lexeme :=
  let isGap (c : Char) := c == ' ' || c == '\t' || c == '\x0c'
  let gap := cs.takeWhile isGap
  let cs := cs.dropWhile isGap
  let comment := if cs.head? == some '#' then cs.takeWhile (· != '\n') else []
  let cs := if cs.head? == some '#' then cs.dropWhile (· != '\n') else cs
  let position := advance state.position (gap ++ comment)
  match cs with
  | [] =>
    if state.brackets.isEmpty then
      List.replicate (state.blocks.length - 1) (mark .dedent position) ++ [mark .finish position]
    else [mark (.broken .invalid) position]
  | '\n' :: rest =>
    let next := { state with position := advance position ['\n'], fresh := true }
    if blank || !state.brackets.isEmpty then continued next rest
    else mark .newline position :: continued next rest
  | '\\' :: '\n' :: rest =>
    if rest.isEmpty then [mark (.broken .invalid) position]
    else continued { state with position := advance position ['\\', '\n'] } rest
  | cs =>
    match nextToken cs with
    | none => [mark (.broken .invalid) position]
    | some (.broken breach, _, _) => [mark (.broken breach) position]
    | some (token, text, rest) =>
      let after := advance position text
      let brackets :=
        match token with
        | .operator _ => bracketsAfter text state.brackets
        | _ => some state.brackets
      match brackets with
      | none => [mark (.broken .invalid) position]
      | some brackets =>
        ⟨token, position, after.line⟩ :: continued { state with position := after, brackets } rest

/-- The tokens of a text, given a bound on the number of steps. -/
def scan : Nat → State → List Char → List Lexeme
  | 0, state, _ => [mark (.broken .invalid) state.position]
  | n + 1, state, cs =>
    if state.fresh then
      match margin ⟨0, 0⟩ 0 [] cs with
      | none => [mark (.broken .invalid) state.position]
      | some here =>
        let position := advance state.position here.passed
        let blank := here.rest.head? == some '#' || here.rest.head? == some '\n'
        if blank || !state.brackets.isEmpty then
          scanLine (scan n) blank { state with position, fresh := false } here.rest
        else
          match layout state.blocks here.indentation with
          | .error breach => [mark (.broken breach) position]
          | .ok (tokens, blocks) =>
            tokens.map (mark · position) ++
              scanLine (scan n) false { state with position, blocks, fresh := false } here.rest
    else scanLine (scan n) false state cs

/-- The state at the start of a text. -/
def start (position : Position) : State :=
  ⟨position, [], [⟨0, 0⟩], true⟩

end Lexer

/--
The tokens of a text that starts at a position. A module ends with a line break, so one is added
if `closed` asks for it and the text has none.
-/
def lexemesAt (position : Position) (closed : Bool) (cs : List Char) : List Lexeme :=
  let cs := Text.unifyBreaks cs
  let cs := if closed && cs.getLast? != some '\n' then cs ++ ['\n'] else cs
  Lexer.scan (2 * cs.length + 2) (Lexer.start position) cs

/-- The tokens of a module. -/
def lexemes (source : String) : List Lexeme :=
  lexemesAt ⟨1, 0⟩ true source.toList

end ProbeWeave.Syntax
