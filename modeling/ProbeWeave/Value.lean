import ProbeWeave.Number.Shortest
import ProbeWeave.Text.Quoted
import ProbeWeave.Text.Character

/-!
# Values

The values that settings can be given before it is known whether they fit: what a profile file or a
command holds. A value is shown in two ways, bare, where a text stands for itself, and as a literal,
where it is quoted; inside of lists and maps all values are literals.
-/

namespace ProbeWeave

/-- A value. -/
inductive Value where
  | null
  | bool (b : Bool)
  | int (n : Int)
  | float (bits : UInt64)
  | text (s : String)
  | list (items : List Value)
  | map (entries : List (Value × Value))
  deriving Inhabited, BEq, Repr

namespace Value

mutual

/-- A value as a literal. -/
def literal : Value → String
  | null => "None"
  | bool b => if b then "True" else "False"
  | int n => toString n
  | float bits => Number.shortestText ⟨true⟩ bits
  | text s => Text.quoted s
  | list items => "[" ++ ", ".intercalate (literals items) ++ "]"
  | map entries => "\x7b" ++ ", ".intercalate (entryLiterals entries) ++ "\x7d"

/-- Values as literals. -/
def literals : List Value → List String
  | [] => []
  | v :: vs => literal v :: literals vs

/-- Keys with their values as literals. -/
def entryLiterals : List (Value × Value) → List String
  | [] => []
  | (key, v) :: rest => (literal key ++ ": " ++ literal v) :: entryLiterals rest

end

/-- A value as it is shown on its own. -/
def shown : Value → String
  | text s => s
  | v => v.literal

/-- Whether a value counts as given: all but nothing, no, zero and what is empty. -/
def isGiven : Value → Bool
  | null => false
  | bool b => b
  | int n => n != 0
  | float bits => bits != 0 && bits != 0x8000000000000000
  | text s => !s.isEmpty
  | list items => !items.isEmpty
  | map entries => !entries.isEmpty

/-- How messages call the kinds of values that depend on where a value comes from. -/
structure KindNames where
  float : String
  list : String
  map : String
  deriving DecidableEq, Inhabited, Repr

/-- The kinds of values that are not read from a file. -/
def plainKinds : KindNames :=
  ⟨"float", "list", "dict"⟩

/-- How messages call the kind of a value. -/
def kindName (names : KindNames) : Value → String
  | null => "NoneType"
  | bool _ => "bool"
  | int _ => "int"
  | float _ => names.float
  | text _ => "str"
  | list _ => names.list
  | map _ => names.map

/-- The items of a list, or of a text with commas: no blanks around them and no empty ones. -/
def items (v : Value) : List String :=
  match v with
  | null => []
  | list values => Text.cleanItems (values.map shown)
  | v => Text.splitList v.shown

end Value

end ProbeWeave
