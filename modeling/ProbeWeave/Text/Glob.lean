/-!
# Wildcard patterns

A pattern stands for whole texts: `*` for any run of characters, `?` for any one, and brackets
for one character of a set, or outside it when the set begins with `!`. A bracket that is not
closed stands for itself. Inside a set `a-z` is a range; a range whose ends are out of order
holds nothing.
-/

namespace ProbeWeave.Text

namespace Glob

/-- A member of a bracket set. -/
inductive Item where
  | single (c : Char)
  | range (first : Char) (last : Char)
  deriving DecidableEq

/-- A piece of a pattern. -/
inductive Piece where
  | run
  | one
  | exactly (c : Char)
  | among (negated : Bool) (items : List Item)
  deriving DecidableEq

/-- Whether a character is a member. -/
def Item.holds (c : Char) : Item → Bool
  | single d => c == d
  | range first last => first ≤ c && c ≤ last

/-- Whether a piece that stands for one character stands for this one. -/
def Piece.accepts (c : Char) : Piece → Bool
  | run => false
  | one => true
  | exactly d => c == d
  | among negated items => items.any (·.holds c) != negated

/--
The chunks between the hyphens of a set that make ranges. A hyphen makes a range if at least
one character of its chunk is before it; `room` counts the characters it still has to skip.
-/
def chunks (room : Nat) (chunk : List Char) : List Char → List (List Char)
  | [] => [chunk.reverse]
  | '-' :: rest =>
    match room with
    | 0 => chunk.reverse :: chunks 2 [] rest
    | room + 1 => chunks room ('-' :: chunk) rest
  | c :: rest => chunks (room - 1) (c :: chunk) rest

/-- A hyphen at the end of a set stands for itself. -/
def closeChunks (cs : List (List Char)) : List (List Char) :=
  match cs.reverse with
  | [] :: last :: before => ((last ++ ['-']) :: before).reverse
  | _ => cs

/-- Joins chunks whose range would be empty, dropping both ends of the range. -/
def joinEmpty : List (List Char) → List (List Char)
  | [] => []
  | chunk :: rest =>
    match joinEmpty rest with
    | [] => [chunk]
    | next :: more =>
      match chunk.getLast?, next with
      | some a, b :: tail =>
        if b < a then (chunk.dropLast ++ tail) :: more else chunk :: next :: more
      | _, _ => chunk :: next :: more

/-- The members that chunks stand for: between two chunks lies a range. -/
def items : List (List Char) → List Item
  | [] => []
  | [chunk] => chunk.map .single
  | chunk :: next :: more =>
    let ranges :=
      match chunk.getLast?, next with
      | some a, b :: _ => [Item.range a b]
      | _, _ => []
    chunk.map .single ++ ranges ++ items (next :: more)

/-- The piece for the text between two brackets. -/
def bracket (inner : List Char) : Piece :=
  let joined :=
    if inner.contains '-' then
      joinEmpty (closeChunks (chunks (if inner.head? == some '!' then 2 else 1) [] inner))
    else [inner]
  match joined with
  | ('!' :: chunk) :: more => if chunk.isEmpty && more.isEmpty then .one
    else .among true (items (chunk :: more))
  | joined => .among false (items joined)

/-- The text up to the bracket that closes a set, and what is behind that bracket. -/
def closing (cs : List Char) : Option (List Char × List Char) :=
  let (mark, cs) := if cs.head? == some '!' then (['!'], cs.drop 1) else ([], cs)
  let (first, cs) := if cs.head? == some ']' then ([']'], cs.drop 1) else ([], cs)
  let inner := cs.takeWhile (· != ']')
  match cs.dropWhile (· != ']') with
  | [] => none
  | _ :: rest => some (mark ++ first ++ inner, rest)

/-- The pieces of a pattern. The first argument bounds the number of pieces. -/
def piecesWithin : Nat → List Char → List Piece
  | 0, _ => []
  | _ + 1, [] => []
  | n + 1, '*' :: rest => .run :: piecesWithin n rest
  | n + 1, '?' :: rest => .one :: piecesWithin n rest
  | n + 1, '[' :: rest =>
    match closing rest with
    | none => .exactly '[' :: piecesWithin n rest
    | some (inner, rest) => bracket inner :: piecesWithin n rest
  | n + 1, c :: rest => .exactly c :: piecesWithin n rest

/-- The pieces of a pattern. -/
def pieces (pattern : String) : List Piece :=
  piecesWithin pattern.length pattern.toList

/-- The suffixes of a text, the longest first. -/
def tails : List Char → List (List Char)
  | [] => [[]]
  | c :: cs => (c :: cs) :: tails cs

/-- Whether the pieces stand for the whole text. -/
def standsFor : List Piece → List Char → Bool
  | [], cs => cs.isEmpty
  | .run :: ps, cs => (tails cs).any (standsFor ps)
  | _ :: _, [] => false
  | p :: ps, c :: cs => p.accepts c && standsFor ps cs

/--
For each suffix of a text, the longest first, whether a piece and then the pieces behind it stand
for it, given the same for the pieces behind it.
-/
def precede (p : Piece) : List Char → List Bool → List Bool
  | c :: cs, b :: behind =>
    let shorter := precede p cs behind
    (if p == .run then b || shorter.headD false else p.accepts c && behind.headD false) :: shorter
  | [], b :: _ => [p == .run && b]
  | _, [] => []

/-- For each suffix of a text, the longest first, whether the pieces stand for it. -/
def suffixes (ps : List Piece) (cs : List Char) : List Bool :=
  ps.foldr (fun p behind => precede p cs behind) ((tails cs).map List.isEmpty)

end Glob

/--
Whether a wildcard pattern stands for a text; upper and lower case differ. Going through all
suffixes of the text once for each piece takes a time that is a product of both lengths, however
many runs the pattern holds.
-/
def globMatches (pattern : String) (text : String) : Bool :=
  (Glob.suffixes (Glob.pieces pattern) text.toList).headD false

namespace Glob

theorem headD_map_tails (f : List Char → Bool) (cs : List Char) :
    ((tails cs).map f).headD false = f cs := by
  cases cs <;> simp [tails]

theorem precede_map_tails (p : Piece) (ps : List Piece) (cs : List Char) :
    precede p cs ((tails cs).map (standsFor ps)) = (tails cs).map (standsFor (p :: ps)) := by
  induction cs with
  | nil => cases p <;> simp [precede, tails, standsFor]
  | cons c cs ih =>
    have hd := headD_map_tails (standsFor ps) cs
    have hd' := headD_map_tails (standsFor (p :: ps)) cs
    simp only [tails, List.map_cons, precede, ih, hd, hd']
    cases p <;> simp [standsFor, tails]

theorem suffixes_eq (ps : List Piece) (cs : List Char) :
    suffixes ps cs = (tails cs).map (standsFor ps) := by
  induction ps with
  | nil =>
    simp only [suffixes, List.foldr_nil]
    congr
  | cons p ps ih =>
    rw [← precede_map_tails, ← ih]
    rfl

end Glob

theorem globMatches_eq (pattern text : String) :
    globMatches pattern text = Glob.standsFor (Glob.pieces pattern) text.toList := by
  rw [globMatches, Glob.suffixes_eq, Glob.headD_map_tails]

end ProbeWeave.Text
