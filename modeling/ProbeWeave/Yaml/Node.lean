import ProbeWeave.Value

/-!
# Nodes of a document

A document is a tree of scalars, lists and maps. Nodes remember how they were written where that
says more than their value does, so that writing a document again changes as little as possible: the
quotes of a text, the digits of a number, brackets around a list, and names that nodes are referred
to by.
-/

namespace ProbeWeave.Yaml

/-- How a text is written. -/
inductive Style where
  | plain
  | single
  | double
  | literal
  | folded
  deriving DecidableEq, Inhabited, Repr

/-- A node without parts. -/
inductive Scalar where
  | null
  | bool (b : Bool)
  | int (n : Int) (written : String)
  | float (bits : UInt64) (written : String)
  | date (written : String)
  | text (s : String) (style : Style)
  deriving BEq, Inhabited, Repr

/-- A node. -/
inductive Node where
  | scalar (s : Scalar)
  | list (inline : Bool) (items : List Node)
  | map (inline : Bool) (entries : List (Node × Node))
  /-- A node with the name that others may refer to it by. -/
  | named (name : String) (node : Node)
  deriving BEq, Inhabited, Repr

namespace Scalar

/-- What a scalar stands for. -/
def value : Scalar → Value
  | null => .null
  | bool b => .bool b
  | int n _ => .int n
  | float bits _ => .float bits
  | date written => .text written
  | text s _ => .text s

end Scalar

namespace Node

mutual

/-- What a node stands for. -/
def value : Node → Value
  | scalar s => s.value
  | list _ items => .list (values items)
  | map _ entries => .map (entryValues entries)
  | named _ node => value node

/-- What nodes stand for. -/
def values : List Node → List Value
  | [] => []
  | node :: rest => value node :: values rest

/-- What keys and their nodes stand for. -/
def entryValues : List (Node × Node) → List (Value × Value)
  | [] => []
  | (key, node) :: rest => (value key, value node) :: entryValues rest

end

/-- How a number with a fraction is written. -/
def floatText (bits : UInt64) : String :=
  match Number.valueOfBits bits with
  | .nan => ".nan"
  | .infinite negative => if negative then "-.inf" else ".inf"
  | _ => Number.shortestText ⟨true⟩ bits

mutual

/-- The node of a value. -/
def ofValue : Value → Node
  | .null => scalar .null
  | .bool b => scalar (.bool b)
  | .int n => scalar (.int n (toString n))
  | .float bits => scalar (.float bits (floatText bits))
  | .text s => scalar (.text s .plain)
  | .list items => list false (ofValues items)
  | .map entries => map false (ofEntries entries)

/-- The nodes of values. -/
def ofValues : List Value → List Node
  | [] => []
  | v :: rest => ofValue v :: ofValues rest

/-- The nodes of keys and their values. -/
def ofEntries : List (Value × Value) → List (Node × Node)
  | [] => []
  | (key, v) :: rest => (ofValue key, ofValue v) :: ofEntries rest

end

/-- A node without its name. -/
def bare : Node → Node
  | named _ node => bare node
  | node => node

/-- How messages call the kinds of values that come from a document. -/
def kinds : Value.KindNames :=
  ⟨"ScalarFloat", "CommentedSeq", "CommentedMap"⟩

/-- How messages call the kind of a node. -/
def kindName (node : Node) : String :=
  match node.bare with
  | scalar (.text _ .single) => "SingleQuotedScalarString"
  | scalar (.text _ .double) => "DoubleQuotedScalarString"
  | scalar (.text _ .literal) => "LiteralScalarString"
  | scalar (.text _ .folded) => "FoldedScalarString"
  | scalar (.date _) => "date"
  | node => node.value.kindName kinds

end Node

end ProbeWeave.Yaml
