import ProbeWeave.Number.Double
import ProbeWeave.Text.Character
import ProbeWeave.Text.Quoted

/-!
# Whole numbers

Reading whole numbers from text, in the digits of any script, and cutting the fraction off a double.
The number of digits is limited, so that reading stays cheap.
-/

namespace ProbeWeave.Number

-- Powers of numbers are those that are computed with, whatever other powers are known.
attribute [local instance (2000)] instPowNat

/-- The most decimal digits a whole number may be written with. -/
def digitLimit : Nat := 4300

/-- Why a text stands for no whole number. -/
inductive WholeFault where
  | malformed (text : String)
  | tooLong (count : Nat)
  deriving DecidableEq, Repr

/-- What a fault is reported as; a long text is cut off. -/
def WholeFault.message : WholeFault → String
  | malformed text =>
    "invalid literal for int() with base 10: " ++
      String.ofList ((Text.quoted text).toList.take 200)
  | tooLong count =>
    "Exceeds the limit (" ++ toString digitLimit ++
      " digits) for integer string conversion: value has " ++ toString count ++
      " digits; use sys.set_int_max_str_digits() to increase the limit"

/-- The number that digits stand for, the first the most significant. -/
def ofDigits (digits : List Nat) : Nat :=
  digits.foldl (fun n d => 10 * n + d) 0

/-- The number that digits stand for, if there are not too many. -/
def limitedOfDigits (digits : List Nat) : Except WholeFault Nat :=
  if digitLimit < digits.length then .error (.tooLong digits.length) else .ok (ofDigits digits)

/--
The digits at the front of a text and what follows them. An underscore may stand between two
digits and nowhere else.
-/
def leadingDigits (behindDigit : Bool) : List Char → Option (List Nat × List Char)
  | [] => some ([], [])
  | c :: rest =>
    match Text.digitValue? c with
    | some d => do
      let (digits, rest) ← leadingDigits true rest
      return (d :: digits, rest)
    | none =>
      if c == '_' then
        if behindDigit && rest.head?.any Text.isDigit then leadingDigits false rest else none
      else some ([], c :: rest)

/-- Whether a character may stand around a number; beside ASCII alone fewer are blank. -/
def isMargin (ascii : Bool) (c : Char) : Bool :=
  Text.isBlank c && !(ascii && 0x1c ≤ c.toNat && c.toNat ≤ 0x1f)

/-- The sign at the front of a text, and what follows it. -/
def leadingSign : List Char → Bool × List Char
  | '-' :: rest => (true, rest)
  | '+' :: rest => (false, rest)
  | cs => (false, cs)

/-- The number with a sign. -/
def signed (negative : Bool) (n : Nat) : Int :=
  if negative then -(n : Int) else n

/-- Reads a whole number with an optional sign and blanks around it. -/
def readWhole (s : String) : Except WholeFault Int :=
  let margin := isMargin (s.toList.all (·.toNat < 128))
  let (negative, cs) := leadingSign (s.toList.dropWhile margin)
  match leadingDigits false cs with
  | none => .error (.malformed s)
  | some (digits, rest) =>
    if digits.isEmpty then .error (.malformed s)
    else do
      let n ← limitedOfDigits digits
      if rest.all margin then return signed negative n else throw (.malformed s)

/-- Why a double has no whole part. -/
inductive NotFinite where
  | nan
  | infinite
  deriving DecidableEq, Repr

/-- What a fault is reported as. -/
def NotFinite.message : NotFinite → String
  | nan => "cannot convert float NaN to integer"
  | infinite => "cannot convert float infinity to integer"

/-- The whole part of a double, its fraction cut off. -/
def wholePart (bits : UInt64) : Except NotFinite Int :=
  match valueOfBits bits with
  | .nan => .error .nan
  | .infinite _ => .error .infinite
  | .finite negative mantissa exponent =>
    .ok (signed negative
      (if 0 ≤ exponent then mantissa * 2 ^ exponent.toNat else mantissa / 2 ^ (-exponent).toNat))

end ProbeWeave.Number
