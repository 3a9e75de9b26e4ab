import ProbeWeave.Number.Whole

/-!
# Durations

A duration is a whole number of microseconds. It is written as hours, minutes and seconds, with the
days in front and six places of the second behind where there are any; a negative one has negative
days and goes on forward from there.
-/

namespace ProbeWeave

open Number

/-- A span of time. -/
structure Duration where
  microseconds : Int
  deriving DecidableEq, Inhabited, Repr

namespace Duration

-- Powers of numbers are those that are computed with, whatever other powers are known.
attribute [local instance (2000)] instPowNat

/-- Why a number of seconds is no duration. -/
inductive Fault where
  | notFinite (fault : NotFinite)
  /-- The number of days does not fit. -/
  | tooManyDays (days : Int)
  deriving DecidableEq, Repr

/-- The most days of a duration, either way. -/
def dayLimit : Nat := 999999999

/-- What a fault is reported as. -/
def Fault.message : Fault → String
  | notFinite fault => fault.message
  | tooManyDays days =>
    if -(2 ^ (31 : Nat) : Int) ≤ days && days < 2 ^ (31 : Nat) then
      "days=" ++ toString days ++ "; must have magnitude <= " ++ toString dayLimit
    else "Python int too large to convert to C int"

/-- The microseconds of a day. -/
def day : Int := 86400000000

/-- The whole days, rounded down. -/
def days (d : Duration) : Int :=
  d.microseconds.fdiv day

/--
The microseconds in seconds that a double stands for. The whole seconds count exactly; the fraction
times a million is rounded to a double first and then to a whole number, a half to the even one.
-/
def microsecondsOf (negative : Bool) (mantissa : Nat) (exponent : Int) : Int :=
  if 0 ≤ exponent then signed negative (mantissa * 2 ^ exponent.toNat * 1000000)
  else
    let den := 2 ^ (-exponent).toNat
    let rest := mantissa % den
    let part : Nat :=
      if rest == 0 then 0
      else
        match valueOfBits (nearestBits (rest * 1000000) den) with
        | .finite _ m e => if 0 ≤ e then m * 2 ^ e.toNat else roundedQuotient m (2 ^ (-e).toNat)
        | _ => 0
    signed negative (mantissa / den * 1000000 + part)

/-- The duration of a number of seconds. -/
def ofSeconds (bits : UInt64) : Except Fault Duration :=
  match valueOfBits bits with
  | .nan => .error (.notFinite .nan)
  | .infinite _ => .error (.notFinite .infinite)
  | .finite negative mantissa exponent =>
    let d : Duration := ⟨microsecondsOf negative mantissa exponent⟩
    if dayLimit < d.days.natAbs then .error (.tooManyDays d.days) else .ok d

/-- A number with at least some digits. -/
def padded (width n : Nat) : String :=
  let digits := Nat.toDigits 10 n
  String.ofList (List.replicate (width - digits.length) '0' ++ digits)

/-- How a duration is written. -/
def text (d : Duration) : String :=
  let rest := (d.microseconds.fmod day).toNat
  let seconds := rest / 1000000
  let micro := rest % 1000000
  (if d.days == 0 then ""
    else toString d.days ++ (if d.days.natAbs == 1 then " day, " else " days, ")) ++
  toString (seconds / 3600) ++ ":" ++ padded 2 (seconds / 60 % 60) ++ ":" ++ padded 2 (seconds % 60) ++
  (if micro == 0 then "" else "." ++ padded 6 micro)

end Duration

end ProbeWeave
