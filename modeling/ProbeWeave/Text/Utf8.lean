/-!
# UTF-8

Decoding is strict: it stops at the first byte that no character can begin or go on with, and
says which bytes are at fault and why. A character begins with a byte that fixes its length; the
second byte is narrowed where a wider range would give an overlong form, a surrogate or a value
above the last code point.
-/

namespace ProbeWeave.Text

namespace Utf8

/-- Why bytes are no text. -/
inductive Reason where
  | start
  | continuation
  | unfinished
  deriving DecidableEq, Repr

/-- How a reason is worded. -/
def Reason.text : Reason → String
  | start => "invalid start byte"
  | continuation => "invalid continuation byte"
  | unfinished => "unexpected end of data"

/-- The bytes at fault: the place of the first, its value and their number. -/
structure Fault where
  first : Nat
  value : Nat
  count : Nat
  reason : Reason
  deriving DecidableEq, Repr

/-- The two digits of a byte. -/
def byteText (value : Nat) : String :=
  let digits := Nat.toDigits 16 value
  String.ofList (List.replicate (2 - digits.length) '0' ++ digits)

/-- What a fault is reported as. -/
def Fault.message (f : Fault) : String :=
  "'utf-8' codec can't decode " ++
    (if f.count == 1 then
      "byte 0x" ++ byteText f.value ++ " in position " ++ toString f.first
    else
      "bytes in position " ++ toString f.first ++ "-" ++ toString (f.first + f.count - 1)) ++
    ": " ++ f.reason.text

/-- Whether a byte goes on with a character. -/
def isTail (b : Nat) : Bool :=
  0x80 ≤ b && b ≤ 0xbf

/-- The number of bytes that follow a first byte, and the range of the next one. -/
def shape (b : Nat) : Option (Nat × Nat × Nat) :=
  if 0xc2 ≤ b && b ≤ 0xdf then some (1, 0x80, 0xbf)
  else if b == 0xe0 then some (2, 0xa0, 0xbf)
  else if b == 0xed then some (2, 0x80, 0x9f)
  else if 0xe1 ≤ b && b ≤ 0xef then some (2, 0x80, 0xbf)
  else if b == 0xf0 then some (3, 0x90, 0xbf)
  else if b == 0xf4 then some (3, 0x80, 0x8f)
  else if 0xf1 ≤ b && b ≤ 0xf3 then some (3, 0x80, 0xbf)
  else none

/-- The part of a first byte that belongs to the code point. -/
def lead (b : Nat) (following : Nat) : Nat :=
  b % (if following == 1 then 0x20 else if following == 2 then 0x10 else 0x08)

/-- How the bytes behind a first byte go on: all read, or how many were good and why no more. -/
def tails (value good : Nat) : Nat → Nat → Nat → List Nat → Except (Nat × Reason) Nat
  | 0, _, _, _ => .ok value
  | _ + 1, _, _, [] => .error (good, .unfinished)
  | n + 1, low, high, b :: rest =>
    if low ≤ b && b ≤ high then tails (value * 64 + b % 64) (good + 1) n 0x80 0xbf rest
    else .error (good, .continuation)

/-- Decodes bytes, given the place of the first. -/
def decodeFrom (place : Nat) : Nat → List Nat → Except Fault (List Char)
  | 0, _ => .ok []
  | _ + 1, [] => .ok []
  | n + 1, b :: rest =>
    if b < 0x80 then do
      return Char.ofNat b :: (← decodeFrom (place + 1) n rest)
    else
      match shape b with
      | none => .error ⟨place, b, 1, .start⟩
      | some (following, low, high) =>
        match tails (lead b following) 1 following low high rest with
        | .ok value => do
          return Char.ofNat value :: (← decodeFrom (place + following + 1) n (rest.drop following))
        | .error (good, reason) => .error ⟨place, b, good, reason⟩

/-- The text that bytes stand for. -/
def decode (bytes : List Nat) : Except Fault String :=
  (decodeFrom 0 bytes.length bytes).map String.ofList

end Utf8

end ProbeWeave.Text
