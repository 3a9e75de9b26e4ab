import ProbeWeave.Text.CompatibilityTable

/-!
# The compatibility form of identifiers

Two spellings of an identifier are the same name when their compatibility forms agree. The form
decomposes every character, sorts the marks behind a character by combining class, and then
composes what composes. The tables list the characters that occur in identifiers, so the form
of other texts is not meant.
-/

namespace ProbeWeave.Text

/-- The rows of the decomposition table. -/
def decompositionRows : Array (List Nat) := tableRows decompositionLines

/-- The rows of the table of combining classes. -/
def combiningRows : Array (List Nat) := tableRows combiningLines

/-- The rows of the composition table. -/
def compositionRows : Array (List Nat) := tableRows compositionLines

/-- Hangul syllables decompose by arithmetic: a leading, a vowel and perhaps a trailing part. -/
def decomposeHangul (c : Nat) : List Nat :=
  let i := c - 0xac00
  let trailing := i % 28
  [0x1100 + i / 588, 0x1161 + i % 588 / 28] ++
    if trailing == 0 then [] else [0x11a7 + trailing]

/-- The full decomposition of a code point. -/
def decompose (c : Nat) : List Nat :=
  if c < 0x80 then [c]
  else if 0xac00 ≤ c && c < 0xd7a4 then decomposeHangul c
  else
    let found := decompositionRows.findSome? fun
      | first :: count :: head :: rest =>
        if first ≤ c && c < first + count then some ((head + (c - first)) :: rest) else none
      | _ => none
    found.getD [c]

/-- The combining class of a code point; a base character has class zero. -/
def combiningClass (c : Nat) : Nat :=
  if c < 0x300 then 0
  else
    let found := combiningRows.findSome? fun
      | [first, count, cls] => if first ≤ c && c < first + count then some cls else none
      | _ => none
    found.getD 0

/--
Sorts the marks behind each base character by class, marks of one class in their order. The
input is read from its end, so a character is put before those of its class.
-/
def orderMarks (cs : List Nat) : List Nat :=
  cs.foldr (fun c sorted => if combiningClass c == 0 then c :: sorted else insertFront c sorted) []
where
  /-- Puts a mark behind the marks at the front that have a smaller class. -/
  insertFront (c : Nat) : List Nat → List Nat
    | [] => [c]
    | d :: rest =>
      if combiningClass d != 0 && combiningClass d < combiningClass c then
        d :: insertFront c rest
      else c :: d :: rest

/-- The character that a pair composes into. -/
def composePair? (a b : Nat) : Option Nat :=
  if 0x1100 ≤ a && a < 0x1113 && 0x1161 ≤ b && b < 0x1176 then
    some (0xac00 + ((a - 0x1100) * 21 + (b - 0x1161)) * 28)
  else if 0xac00 ≤ a && a < 0xd7a4 && (a - 0xac00) % 28 == 0 && 0x11a7 < b && b < 0x11c3 then
    some (a + (b - 0x11a7))
  else
    compositionRows.findSome? fun
      | [first, second, composed] => if first == a && second == b then some composed else none
      | _ => none

/--
Composes a base character with what follows it. `skipped` holds, in reverse order, the marks
that did not compose; a mark composes only if none of the same or a larger class stands
between it and the base.
-/
def composeFrom (base : Nat) (skipped : List Nat) : List Nat → List Nat
  | [] => base :: skipped.reverse
  | c :: rest =>
    let blocked :=
      match skipped with
      | [] => false
      | d :: _ => combiningClass d == 0 || combiningClass c ≤ combiningClass d
    match if blocked then none else composePair? base c with
    | some composed => composeFrom composed skipped rest
    | none =>
      if combiningClass c == 0 then base :: (skipped.reverse ++ composeFrom c [] rest)
      else composeFrom base (c :: skipped) rest

/-- The compatibility form of a list of code points. -/
def compatibilityPoints (cs : List Nat) : List Nat :=
  match orderMarks (cs.flatMap decompose) with
  | [] => []
  | c :: rest => composeFrom c [] rest

/-- The compatibility form of a text; texts of ASCII characters are their own. -/
def compatibilityForm (s : String) : String :=
  if s.toList.all (·.toNat < 128) then s
  else String.ofList ((compatibilityPoints (s.toList.map Char.toNat)).map Char.ofNat)

end ProbeWeave.Text
