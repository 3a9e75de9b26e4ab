import Mathlib.Data.List.Forall2
import ProbeWeave.Syntax.Operand
import ProbeWeave.Weaving.Hoist

/-! # The order in which the parts of an expression run

Operands run from left to right and before the expression they belong to. Which of them run, and how
often, differs: the later operands of `and`, `or` and a chain of comparisons may not run at all, of
the branches of a conditional expression one does, and the parts of a comprehension run again and
again. `effects` lists the effects of an expression in the order in which they come when everything
runs, and `Performs` gives the sequences of effects that a run can perform. Effects are told apart
by their places, so two effects that look alike are not confused.

The body of a function without a name is no operand: it runs when the function is called.
-/

namespace ProbeWeave.Syntax

open Weaving

/-- A place in an expression: the numbers of the operands that lead there. -/
abbrev Place := List Nat

/-- What runs at one place runs before what runs at the other. -/
def Place.Before : Place → Place → Prop
  | [], _ => False
  | _ :: _, [] => True
  | i :: p, j :: q => i < j ∨ i = j ∧ Place.Before p q

/-- The default values of parameters in the order in which they run. -/
def Parameters.defaults (p : Parameters) : List Expr :=
  (p.positional ++ p.keywordOnly).filterMap Parameter.default?

/-- The expressions of a clause in the order in which they run. -/
def Clause.parts : Clause → List Expr
  | mk _ target source conditions => source :: target :: conditions

namespace Expr

/-- The expressions directly below an expression that run when it does, in the order in which they
run. The target of an assignment expression is a name, and to bind it is no operand's effect. -/
def operands : Expr → List Expr
  | boolean _ operands => operands
  | named target value => [target, value]
  | binary left _ right => [left, right]
  | unary _ operand => [operand]
  | lambda parameters _ => parameters.defaults
  | conditional test body otherwise => [test, body, otherwise]
  | dict items => items.flatMap DictItem.parts
  | set elements | list elements | tuple elements => elements
  | listComprehension element clauses | setComprehension element clauses
  | generator element clauses => clauses.flatMap Clause.parts ++ [element]
  | dictComprehension key value clauses => clauses.flatMap Clause.parts ++ [key, value]
  | await value => [value]
  | yield value => value.toList
  | yieldFrom value => [value]
  | compare left _ comparators => left :: comparators
  | call _ callee arguments keywords => callee :: (arguments ++ keywords.map Keyword.value)
  | formatted value _ format => value :: format.toList
  | joined parts => parts
  | member value _ => [value]
  | subscript value index => [value, index]
  | starred value => [value]
  | slice lower upper step => lower.toList ++ upper.toList ++ step.toList
  | constant _ | name .. => []

/-- The numbers of the operands that a run goes through, one after the other. -/
def Schedule (e : Expr) (order : List Nat) : Prop :=
  match e with
  | boolean _ operands => ∃ n, min 1 operands.length ≤ n ∧ n ≤ operands.length ∧ order = List.range n
  | conditional .. => order = [0, 1] ∨ order = [0, 2]
  | compare _ _ comparators => ∃ n, min 1 comparators.length ≤ n ∧ n ≤ comparators.length ∧
      order = List.range (n + 1)
  | listComprehension .. | setComprehension .. | dictComprehension .. | generator .. =>
    ∀ i ∈ order, i < e.operands.length
  | _ => order = List.range e.operands.length

/-- The expression at a place. -/
def at? (e : Expr) : Place → Option Expr
  | [] => some e
  | i :: p => e.operands[i]?.bind fun x => x.at? p

/-- The place of the effect that an expression is in itself. -/
def ownEffect (e : Expr) : List Place :=
  if isEffect (.expr e) then [[]] else []

theorem sizeOf_default_lt {p : Parameters} {x : Expr} (member : x ∈ p.defaults) :
    sizeOf x < sizeOf p := by
  cases p
  simp only [Parameters.defaults, Parameters.positional, Parameters.positionalOnly,
    Parameters.regular, Parameters.keywordOnly, List.mem_filterMap, List.mem_append] at member
  grind [→ List.sizeOf_lt_of_mem, → Node.sizeOf_lt_of_default]

theorem sizeOf_clausePart_lt {c : Clause} {x : Expr} (member : x ∈ c.parts) :
    sizeOf x < sizeOf c := by
  cases c
  simp only [Clause.parts, List.mem_cons] at member
  grind [→ List.sizeOf_lt_of_mem]

/-- Operands are smaller than the expression they belong to. -/
theorem sizeOf_lt_of_mem_operands {e x : Expr} (member : x ∈ e.operands) : sizeOf x < sizeOf e := by
  cases e <;> simp only [operands, List.mem_cons, List.mem_append, List.mem_map,
    List.not_mem_nil, or_false, List.mem_flatMap] at member <;>
  grind [→ List.sizeOf_lt_of_mem, → Node.sizeOf_lt_of_mem_toList, Node.sizeOf_keyword_value_lt,
    → sizeOf_lt_of_mem_itemParts, → sizeOf_default_lt, → sizeOf_clausePart_lt]

end Expr

/-- Places below operands, which are numbered from a given number on. -/
def numbered (n : Nat) : List (List Place) → List Place
  | [] => []
  | ps :: rest => ps.map (n :: ·) ++ numbered (n + 1) rest

namespace Expr

/-- The places of the effects of an expression, in the order in which they come when all operands
run. -/
def effects (e : Expr) : List Place :=
  numbered 0 (e.operands.attach.map fun ⟨x, _⟩ => effects x) ++ e.ownEffect
termination_by sizeOf e
decreasing_by exact sizeOf_lt_of_mem_operands ‹_›

theorem effects_eq (e : Expr) : e.effects = numbered 0 (e.operands.map effects) ++ e.ownEffect := by
  rw [effects]
  simp

end Expr

mutual

/-- The sequences of effects that a run of an expression can perform. -/
inductive Performs : Expr → List Place → Prop where
  | intro {e : Expr} {order : List Nat} {t : List Place} :
      e.Schedule order → PerformsEach e.operands order t → Performs e (t ++ e.ownEffect)

/-- The sequences of effects performed when some of several expressions run, given by numbers. -/
inductive PerformsEach : List Expr → List Nat → List Place → Prop where
  | nil {es : List Expr} : PerformsEach es [] []
  | cons {es : List Expr} {i : Nat} {e : Expr} {order : List Nat} {t rest : List Place} :
      es[i]? = some e → Performs e t → PerformsEach es order rest →
      PerformsEach es (i :: order) (t.map (i :: ·) ++ rest)

end

end ProbeWeave.Syntax
