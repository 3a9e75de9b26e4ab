import ProbeWeave.Number.Double

/-!
# The shortest decimal text of a double

A finite double is written with the fewest significant digits that read back as the same
double; of several such numbers the nearest to its value is taken. The digits are found by
trying the two neighbours of the value on the grid of 1, 2, … 17 digits in exact arithmetic.
-/

namespace ProbeWeave.Number

-- Powers of numbers are those that are computed with, whatever other powers are known.
attribute [local instance (2000)] instPowNat

/-- A natural number as a power of ten apart: `digits * 10 ^ exponent`. -/
structure Decimal where
  digits : Nat
  exponent : Int
  deriving DecidableEq, Repr

/-- The number of decimal digits of a natural number. -/
def digitCount (n : Nat) : Nat :=
  (Nat.toDigits 10 n).length

/--
The shortest decimal of `mantissa * 2 ^ exponent`, if `narrowBelow` says whether the double
below is only half as far away as the one above. The value and the ends of the interval that
rounds to it are scaled to a common denominator.
-/
def shortestDecimal (mantissa : Nat) (exponent : Int) : Decimal :=
  let up : Nat := if 0 ≤ exponent then 2 ^ exponent.toNat else 1
  let den : Nat := 4 * if 0 ≤ exponent then 1 else 2 ^ (-exponent).toNat
  let value := 4 * mantissa * up
  let narrowBelow := mantissa == 2 ^ (52 : Nat) && -1074 < exponent
  let low := value - (if narrowBelow then 1 else 2) * up
  let high := value + 2 * up
  let even := mantissa % 2 == 0
  -- whether `n / d` rounds to the double
  let readsBack (n d : Nat) : Bool :=
    if even then low * d ≤ n * den && n * den ≤ high * d
    else low * d < n * den && n * den < high * d
  -- the power of ten just above the value
  let wide : Int := (digitCount (value / den) : Int)
  let magnitude : Int :=
    if den ≤ value then wide
    else leadingZeros value den 400 0
  let attempt (count : Nat) : Option Decimal :=
    let shift : Int := magnitude - count
    let (gridNum, gridDen) : Nat × Nat :=
      if 0 ≤ shift then (10 ^ shift.toNat, 1) else (1, 10 ^ (-shift).toNat)
    -- value = q * grid + remainder
    let scaledValue := value * gridDen
    let scaledGrid := den * gridNum
    let q := scaledValue / scaledGrid
    let r := scaledValue % scaledGrid
    let lowerOk := 0 < q && readsBack (q * gridNum) gridDen
    let upperOk := readsBack ((q + 1) * gridNum) gridDen
    if lowerOk && upperOk then
      if 2 * r < scaledGrid then some ⟨q, shift⟩
      else if scaledGrid < 2 * r then some ⟨q + 1, shift⟩
      else some ⟨q + q % 2, shift⟩
    else if lowerOk then some ⟨q, shift⟩
    else if upperOk then some ⟨q + 1, shift⟩
    else none
  ((List.range 18).findSome? fun count => if count == 0 then none else attempt count).getD
    ⟨mantissa, 0⟩
where
  /-- The exponent of ten just above a value less than one. -/
  leadingZeros (value den : Nat) : Nat → Int → Int
    | 0, k => k
    | n + 1, k => if den ≤ value * 10 then k else leadingZeros (value * 10) den n (k - 1)

/-- Drops the zeros at the end of the digits. -/
def Decimal.trim (d : Decimal) : Decimal :=
  go 400 d
where
  go : Nat → Decimal → Decimal
    | 0, d => d
    | n + 1, d => if d.digits != 0 && d.digits % 10 == 0 then go n ⟨d.digits / 10, d.exponent + 1⟩ else d

/-- How a decimal is laid out: whether a whole number keeps a fraction of zero. -/
structure Layout where
  keepsPoint : Bool

/--
The text of a decimal. It is positional while the point stands within sixteen digits or at most
four places before the digits; otherwise one digit stands before the point and a signed exponent
of at least two digits follows.
-/
def Decimal.text (layout : Layout) (d : Decimal) : String :=
  let digits := Nat.toDigits 10 d.digits
  let count : Int := digits.length
  let point : Int := count + d.exponent
  if -4 < point && point ≤ 16 then
    if point ≤ 0 then
      "0." ++ String.ofList (List.replicate (-point).toNat '0' ++ digits)
    else if count ≤ point then
      String.ofList (digits ++ List.replicate (point - count).toNat '0') ++
        if layout.keepsPoint then ".0" else ""
    else
      String.ofList (digits.take point.toNat ++ '.' :: digits.drop point.toNat)
  else
    let fraction := digits.drop 1
    let e := point - 1
    let places := Nat.toDigits 10 e.natAbs
    let places := if places.length < 2 then '0' :: places else places
    String.ofList (digits.take 1 ++ (if fraction.isEmpty then [] else '.' :: fraction) ++
      'e' :: (if e < 0 then '-' else '+') :: places)

/-- The shortest text of a double. Infinity is written `inf` and what is no number `nan`. -/
def shortestText (layout : Layout) (bits : UInt64) : String :=
  match valueOfBits bits with
  | .nan => "nan"
  | .infinite negative => if negative then "-inf" else "inf"
  | .finite negative mantissa exponent =>
    (if negative then "-" else "") ++
      if mantissa == 0 then if layout.keepsPoint then "0.0" else "0"
      else ((shortestDecimal mantissa exponent).trim).text layout

end ProbeWeave.Number
