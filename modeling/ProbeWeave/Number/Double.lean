/-!
# Doubles by exact arithmetic

A double is given by its 64 bits. Reading a decimal number rounds its exact value to the nearest
double, a tie going to the even one; the value of a finite double is a natural number times a
power of two. Everything is computed with natural numbers, so no operation of the processor is
involved.
-/

namespace ProbeWeave.Number

-- Powers of numbers are those that are computed with, whatever other powers are known.
attribute [local instance (2000)] instPowNat

/-- The bits of positive infinity. -/
def infinityBits : UInt64 := 0x7ff0000000000000

/-- A quotient rounded to the nearest natural number, a tie going to the even one. -/
def roundedQuotient (a b : Nat) : Nat :=
  let q := a / b
  let r := a % b
  if 2 * r < b then q else if b < 2 * r then q + 1 else q + q % 2

/--
The bits of the double next to `num / den`, both positive. The quotient is scaled so that its
rounded value has 53 binary digits, or fewer where the smallest exponent is reached.
-/
def nearestBits (num den : Nat) : UInt64 :=
  let estimate : Int := (num.log2 : Int) - den.log2
  let below (k : Int) : Bool :=
    if 0 ≤ k then num < den * 2 ^ k.toNat else num * 2 ^ (-k).toNat < den
  let top := if below estimate then estimate - 1 else estimate
  let scale : Int := max (top - 52) (-1074)
  let mantissa :=
    if 0 ≤ scale then roundedQuotient num (den * 2 ^ scale.toNat)
    else roundedQuotient (num * 2 ^ (-scale).toNat) den
  let (mantissa, scale) :=
    if mantissa == 2 ^ (53 : Nat) then (2 ^ (52 : Nat), scale + 1) else (mantissa, scale)
  if 971 < scale then infinityBits
  else if mantissa < 2 ^ (52 : Nat) then mantissa.toUInt64
  else ((scale + 1075).toNat * 2 ^ (52 : Nat) + (mantissa - 2 ^ (52 : Nat))).toUInt64

/-- The bits of the double next to `mantissa` times a power of ten. -/
def bitsOfDecimal (mantissa : Nat) (exponent : Int) : UInt64 :=
  if mantissa == 0 then 0
  else
    let digits : Int := (Nat.toDigits 10 mantissa).length
    if 400 < digits + exponent then infinityBits
    else if digits + exponent < -400 then 0
    else if 0 ≤ exponent then nearestBits (mantissa * 10 ^ exponent.toNat) 1
    else nearestBits mantissa (10 ^ (-exponent).toNat)

/-- The kinds of doubles. A finite one is `mantissa * 2 ^ exponent` with a sign. -/
inductive Value where
  | nan
  | infinite (negative : Bool)
  | finite (negative : Bool) (mantissa : Nat) (exponent : Int)
  deriving DecidableEq, Repr

/-- The value that bits stand for. -/
def valueOfBits (bits : UInt64) : Value :=
  let n := bits.toNat
  let negative := 2 ^ (63 : Nat) ≤ n
  let exponent : Nat := n / 2 ^ (52 : Nat) % 2048
  let fraction : Nat := n % 2 ^ (52 : Nat)
  if exponent == 2047 then if fraction == 0 then .infinite negative else .nan
  else if exponent == 0 then .finite negative fraction (-1074)
  else .finite negative (fraction + 2 ^ (52 : Nat)) ((exponent : Int) - 1075)

end ProbeWeave.Number
