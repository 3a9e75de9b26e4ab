import ProbeWeave.Number.Whole
import ProbeWeave.Yaml.Node

/-!
# Scalars without quotes

A scalar that is written without quotes may stand for nothing, yes or no, a number or a date. What
fits none of these is a text.
-/

namespace ProbeWeave.Yaml

namespace Scalar

/-- The words for nothing. -/
def nullWords : List String :=
  ["", "~", "null", "Null", "NULL"]

/-- The words for yes. -/
def trueWords : List String :=
  ["true", "True", "TRUE"]

/-- The words for no. -/
def falseWords : List String :=
  ["false", "False", "FALSE"]

/-- The sign of a number, and what follows it. -/
def sign (cs : List Char) : Bool × List Char :=
  Number.leadingSign cs

/-- Whether all characters are digits of a base or underscores, and there are any. -/
def isDigits (base : Nat) (cs : List Char) : Bool :=
  !cs.isEmpty && cs.all fun c =>
    c == '_' || match hexValue? c with
      | some d => d < base
      | none => false
where
  /-- The value of a hexadecimal digit. -/
  hexValue? (c : Char) : Option Nat :=
    if c.isDigit then some (c.toNat - 48)
    else if 'a' ≤ c && c ≤ 'f' then some (c.toNat - 87)
    else if 'A' ≤ c && c ≤ 'F' then some (c.toNat - 55)
    else none

/-- The number that digits of a base stand for; underscores do not count. -/
def ofDigits (base : Nat) (cs : List Char) : Nat :=
  cs.foldl (fun n c => match isDigits.hexValue? c with
    | some d => base * n + d
    | none => n) 0

/-- The whole number that a scalar is. -/
def whole? (s : String) : Option Scalar :=
  let (negative, cs) := sign s.toList
  let number (base : Nat) (digits : List Char) : Option Scalar :=
    if !isDigits base digits || digits.all (· == '_') then none
    else
      let n := Number.signed negative (ofDigits base digits)
      let plain := base == 10 && digits.head? != some '0' && !digits.contains '_'
      some (int n (if plain then toString n else if s.startsWith "+" then (s.drop 1).toString else s))
  match cs with
  | ['0'] => some (int 0 "0")
  | '0' :: 'b' :: digits => number 2 digits
  | '0' :: 'o' :: digits => number 8 digits
  | '0' :: 'x' :: digits => number 16 digits
  | c :: digits =>
    if c.isDigit || (c == '_' && s.toList.head? != some '_') then number 10 (c :: digits) else none
  | [] => none

/-- An exponent of ten at the front of some characters, up to their end. -/
def exponent? (needsSign : Bool) : List Char → Option Int
  | e :: cs =>
    if e == 'e' || e == 'E' then
      let (negative, digits) := sign cs
      if digits.isEmpty || !digits.all Char.isDigit || (needsSign && digits.length == cs.length) then
        none
      else some (Number.signed negative (ofDigits 10 digits))
    else none
  | [] => some 0

/-- The number with a fraction that a scalar is. -/
def fraction? (s : String) : Option Scalar :=
  let (negative, cs) := sign s.toList
  let signBit : UInt64 := if negative then 0x8000000000000000 else 0
  let isPart (c : Char) : Bool := c.isDigit || c == '_'
  let before := cs.takeWhile isPart
  let number (after : List Char) (exponent : Int) : Option Scalar :=
    let places := (after.filter Char.isDigit).length
    some (float (Number.bitsOfDecimal (ofDigits 10 (before ++ after)) (exponent - places) + signBit) s)
  if [['.', 'i', 'n', 'f'], ['.', 'I', 'n', 'f'], ['.', 'I', 'N', 'F']].contains cs then
    some (float (Number.infinityBits + signBit) s)
  else if [".nan", ".NaN", ".NAN"].contains s then some (float 0x7ff8000000000000 s)
  else if before.head? == some '_' then none
  else
    match cs.dropWhile isPart with
    | '.' :: cs => do
      let after := cs.takeWhile isPart
      if before.isEmpty && (after.filter Char.isDigit).isEmpty then none
      else number after (← exponent? before.isEmpty (cs.dropWhile isPart))
    | c :: cs => do
      if before.isEmpty then none else number [] (← exponent? false (c :: cs))
    | [] => none

/-- The number of digits at the front of some characters if it is in a range, and what follows. -/
def digitRun? (low high : Nat) (cs : List Char) : Option (List Char) :=
  let n := (cs.takeWhile Char.isDigit).length
  if low ≤ n && n ≤ high then some (cs.drop n) else none

/-- Passes over one character. -/
def pass? (c : Char) : List Char → Option (List Char)
  | d :: cs => if c == d then some cs else none
  | [] => none

/-- Whether a clock time ends behind the seconds, with an optional fraction and zone. -/
def isTimeEnd (cs : List Char) : Bool :=
  let cs :=
    match cs with
    | '.' :: cs => cs.dropWhile Char.isDigit
    | cs => cs
  match cs.dropWhile fun c => c == ' ' || c == '\t' with
  | [] => cs.isEmpty
  | ['Z'] => true
  | c :: zone =>
    (c == '+' || c == '-') &&
      match digitRun? 1 2 zone with
      | some [] => true
      | some (':' :: minutes) => digitRun? 2 2 minutes == some []
      | _ => false

/-- Whether a date, and perhaps a time, is written. -/
def isDate (s : String) : Bool :=
  let cs := s.toList
  let short : Option (List Char) := do
    digitRun? 2 2 (← pass? '-' (← digitRun? 2 2 (← pass? '-' (← digitRun? 4 4 cs))))
  let day : Option (List Char) := do
    digitRun? 1 2 (← pass? '-' (← digitRun? 1 2 (← pass? '-' (← digitRun? 4 4 cs))))
  let clock (cs : List Char) : Option (List Char) := do
    digitRun? 2 2 (← pass? ':' (← digitRun? 2 2 (← pass? ':' (← digitRun? 1 2 cs))))
  short == some [] ||
    match day with
    | some (c :: cs) =>
      if c == 'T' || c == 't' then (clock cs).any isTimeEnd
      else if c == ' ' || c == '\t' then
        (clock (cs.dropWhile fun c => c == ' ' || c == '\t')).any isTimeEnd
      else false
    | _ => false

/-- What a scalar without quotes is. -/
def ofPlain (s : String) : Scalar :=
  if nullWords.contains s then null
  else if trueWords.contains s then bool true
  else if falseWords.contains s then bool false
  else ((fraction? s).orElse fun _ => whole? s).getD
    (if isDate s then date s else text s .plain)

/-- The key under which a map takes over entries of others. -/
def mergeKey : String := "<<"

/-- Whether a text stands for itself when it is written without quotes. -/
def isPlainText (s : String) : Bool :=
  s != mergeKey && s != "=" && ofPlain s == text s .plain

end Scalar

end ProbeWeave.Yaml
