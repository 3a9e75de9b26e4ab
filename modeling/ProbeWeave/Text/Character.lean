/-!
# Characters and their classes

A property of characters is given as an array of ranges of code points, both ends included, in
increasing order. Digits and blanks are told without such a table.
-/

namespace ProbeWeave.Text

/-- Whether a code point lies in one of the ranges. -/
def inRanges (ranges : Array (Nat × Nat)) (c : Nat) : Bool :=
  ranges.any fun (first, last) => first ≤ c && c ≤ last

theorem inRanges_iff {ranges : Array (Nat × Nat)} {c : Nat} :
    inRanges ranges c = true ↔ ∃ r ∈ ranges, r.1 ≤ c ∧ c ≤ r.2 := by
  simp only [inRanges, Array.any_eq_true', Bool.and_eq_true, decide_eq_true_eq]

/-! ### Decimal digits

The digits of every script that writes numbers in base ten. They come in runs of ten, so a run
is given by its zero; the runs are those of Unicode 14. -/

/-- The zero of every run of ten digits. -/
def digitZeros : Array Nat := #[
  0x30, 0x660, 0x6f0, 0x7c0, 0x966, 0x9e6, 0xa66, 0xae6, 0xb66, 0xbe6, 0xc66, 0xce6, 0xd66, 0xde6,
  0xe50, 0xed0, 0xf20, 0x1040, 0x1090, 0x17e0, 0x1810, 0x1946, 0x19d0, 0x1a80, 0x1a90, 0x1b50,
  0x1bb0, 0x1c40, 0x1c50, 0xa620, 0xa8d0, 0xa900, 0xa9d0, 0xa9f0, 0xaa50, 0xabf0, 0xff10, 0x104a0,
  0x10d30, 0x11066, 0x110f0, 0x11136, 0x111d0, 0x112f0, 0x11450, 0x114d0, 0x11650, 0x116c0,
  0x11730, 0x118e0, 0x11950, 0x11c50, 0x11d50, 0x11da0, 0x16a60, 0x16ac0, 0x16b50, 0x1d7ce,
  0x1d7d8, 0x1d7e2, 0x1d7ec, 0x1d7f6, 0x1e140, 0x1e2f0, 0x1e950, 0x1fbf0]

/-- The value of a decimal digit of any script. -/
def digitValue? (c : Char) : Option Nat :=
  if c.val < 128 then if c.isDigit then some (c.toNat - '0'.toNat) else none
  else (digitZeros.find? fun first => first ≤ c.toNat && c.toNat < first + 10).map (c.toNat - ·)

/-- Whether a character is a decimal digit of any script. -/
def isDigit (c : Char) : Bool :=
  (digitValue? c).isSome

/-! ### Blank characters

The characters that count as white space: those of the bidirectional classes for separators and
of the category for spaces. Stripping a text drops them at its ends. Items in a text are parted by
commas; blanks around an item do not belong to it, and items of blanks only are left out. -/

/-- Whether a character is white space. -/
def isBlank (c : Char) : Bool :=
  let n := c.toNat
  (0x09 ≤ n && n ≤ 0x0d) || (0x1c ≤ n && n ≤ 0x20) || n == 0x85 || n == 0xa0 || n == 0x1680 ||
    (0x2000 ≤ n && n ≤ 0x200a) || n == 0x2028 || n == 0x2029 || n == 0x202f || n == 0x205f ||
    n == 0x3000

/-- Drops the elements at the end that satisfy a test. -/
def dropEndWhile {α : Type} (test : α → Bool) (xs : List α) : List α :=
  (xs.reverse.dropWhile test).reverse

/-- Drops the white space at both ends. -/
def stripChars (cs : List Char) : List Char :=
  dropEndWhile isBlank (cs.dropWhile isBlank)

/-- Drops the white space at both ends of a text. -/
def strip (s : String) : String :=
  String.ofList (stripChars s.toList)

/-- The white space at the front of a text. -/
def leadingBlank (s : String) : String :=
  String.ofList (s.toList.takeWhile isBlank)

/-- The items that are left when blanks around them and empty ones are dropped. -/
def cleanItems (items : List String) : List String :=
  (items.map strip).filter (· != "")

/-- The items of a text. -/
def splitList (s : String) : List String :=
  cleanItems (s.splitOn ",")

end ProbeWeave.Text
