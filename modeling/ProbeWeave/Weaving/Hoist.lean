import ProbeWeave.Syntax.Call
import ProbeWeave.Syntax.Operand

/-!
# Calls that can run ahead of their statement

`Hoisting.visit` walks an expression in the order in which its operands run and moves timed
calls out of it: each is replaced by a temporary, and the call with its own operands replaced
is recorded, inner calls before the calls around them. A timed call is moved only while nothing
that may have an effect stands before it, so moving calls swaps no two of them.

Operands that run under a condition or repeatedly are never entered; if they hold an effect,
nothing behind them is moved any more.
-/

namespace ProbeWeave.Weaving

open Syntax

/-! ### Names for temporaries

A supply hands out names made of a stem and a number. It counts upwards and passes over names
that are taken already, and every name it hands out is taken from then on. -/

/-- What is left of the names of one stem. -/
structure Supply where
  stem : String
  /-- The number of the last name handed out or passed over. -/
  count : Nat
  /-- The names that must not be handed out. -/
  taken : List String

namespace Supply

/-- A supply from which no name was handed out. -/
def fresh (stem : String) (taken : List String) : Supply :=
  ⟨stem, 0, taken⟩

/-- The name with a number. -/
def nameAt (s : Supply) (n : Nat) : String :=
  s.stem ++ toString n

/--
The number of the next name that is not taken, trying a given number of them. One more than the
number of taken names is enough, because names with different numbers differ.
-/
def search (s : Supply) : Nat → Nat → Nat
  | 0, n => n
  | tries + 1, n => if s.taken.contains (s.nameAt n) then search s tries (n + 1) else n

/-- The next name and the supply without it. -/
def next (s : Supply) : String × Supply :=
  let n := s.search s.taken.length (s.count + 1)
  (s.nameAt n, { s with count := n, taken := s.nameAt n :: s.taken })

end Supply

/-! ### Moving calls -/

/-- A call that runs ahead of its statement. -/
structure Hoist where
  /-- The call as it stands in the statement, awaited or not. -/
  call : Expr
  /-- The call with the calls moved out of its operands replaced by their temporaries. -/
  bound : Expr
  /-- The probe that times the call. -/
  probe : String
  /-- The temporary that holds its value. -/
  temporary : String

/-- What the walk knows between two expressions. -/
structure Hoisting where
  /-- The calls moved so far, in the order in which their temporaries are bound. -/
  hoists : List Hoist
  /-- Whether nothing that stays in the statement and may have an effect was passed. -/
  safe : Bool
  supply : Supply

/-- Whether a node is an effect in itself. -/
def isEffect : Node → Bool
  | .expr (.call ..) | .expr (.await _) | .expr (.yield _) | .expr (.yieldFrom _)
  | .expr (.named ..) => true
  | _ => false

/-- Whether an expression holds an effect. -/
def hasEffects (e : Expr) : Bool :=
  (Node.expr e).preorder.any isEffect

/-- Whether an expression is a call or an `await`. -/
def isCallLike : Expr → Bool
  | .call .. | .await _ => true
  | _ => false

/-- Whether an expression hands control to the caller. -/
def isYield : Expr → Bool
  | .yield _ | .yieldFrom _ => true
  | _ => false

/-- The call of an expression with other operands, awaited if the expression awaits it. -/
def refillCall (e : Expr) (call : Expr) (parts : List Expr) : Expr :=
  match e with
  | .await _ => .await (call.withEntered parts)
  | _ => call.withEntered parts

/-- The call that an expression is, awaited or not, as an expression. -/
def innerCall? (e : Expr) : Option Expr :=
  e.unwrapCall?.map Call.toExpr

theorem sizeOf_innerCall_le {e c : Expr} (h : innerCall? e = some c) : sizeOf c ≤ sizeOf e := by
  unfold innerCall? at h
  cases e with
  | await value =>
    cases value <;> simp_all [Expr.unwrapCall?, Expr.asCall?, Call.toExpr]
  | call start callee arguments keywords =>
    simp_all [Expr.unwrapCall?, Expr.asCall?, Call.toExpr]
  | _ => simp_all [Expr.unwrapCall?, Expr.asCall?]

namespace Hoisting

/-- The walk before its first expression. -/
def start (supply : Supply) : Hoisting :=
  ⟨[], true, supply⟩

/-- Nothing behind is moved any more. -/
def unsafely (h : Hoisting) : Hoisting :=
  { h with safe := false }

/-- Passes parts that run under a condition or repeatedly. -/
def skip (parts : List Expr) (h : Hoisting) : Hoisting :=
  if parts.any hasEffects then h.unsafely else h

/-- Records a call and gives the name of its temporary. -/
def record (h : Hoisting) (call bound : Expr) (probe : String) : String × Hoisting :=
  let (temporary, supply) := h.supply.next
  (temporary,
    { hoists := h.hoists ++ [⟨call, bound, probe, temporary⟩], safe := true, supply })

/-- The probe of an expression that is a timed call, awaited or not, with the call. -/
def timed? (probeOf : Call → Option String) (e : Expr) : Option (Expr × String) :=
  match e.unwrapCall? with
  | some call => (probeOf call).map fun probe => (call.toExpr, probe)
  | none => none

theorem sizeOf_timed_le {probeOf : Call → Option String} {e c : Expr} {p : String}
    (h : timed? probeOf e = some (c, p)) : sizeOf c ≤ sizeOf e := by
  refine sizeOf_innerCall_le (e := e) ?_
  unfold timed? at h
  unfold innerCall?
  split at h <;> simp_all

mutual

/-- Walks an expression: what stays of it and what the walk knows behind it. -/
def visit (probeOf : Call → Option String) (e : Expr) (h : Hoisting) : Expr × Hoisting :=
  match ht : timed? probeOf e with
  | some (call, probe) =>
    let (parts, after) := visitAll probeOf (sizeOf e) call.enteredParts
      (fun _ hx => Nat.lt_of_lt_of_le (Expr.sizeOf_lt_of_mem_enteredParts hx)
        (sizeOf_timed_le ht)) h
    let rest := refillCall e call parts
    if h.safe then
      let (temporary, after) := after.record e rest probe
      (.name temporary .load, after)
    else (rest, after.unsafely)
  | none =>
    let (parts, after) := visitAll probeOf (sizeOf e) e.enteredParts
      (fun _ hx => Expr.sizeOf_lt_of_mem_enteredParts hx) h
    let after := after.skip e.skippedParts
    (e.withEntered parts, if isCallLike e || isYield e then after.unsafely else after)
termination_by (sizeOf e, 1, 0)

/-- Walks expressions smaller than a bound, one after the other. -/
def visitAll (probeOf : Call → Option String) (bound : Nat) (es : List Expr)
    (small : ∀ e ∈ es, sizeOf e < bound) (h : Hoisting) : List Expr × Hoisting :=
  match es with
  | [] => ([], h)
  | e :: rest =>
    have := small e (by simp)
    let (first, h) := visit probeOf e h
    let (others, h) := visitAll probeOf bound rest (fun x hx => small x (by simp [hx])) h
    (first :: others, h)
termination_by (bound, 0, es.length)

end

/-- Walks the operands of a call but not the call itself, which stays, awaited or not. -/
def visitOperands (probeOf : Call → Option String) (e : Expr) (h : Hoisting) : Expr × Hoisting :=
  match innerCall? e with
  | some call =>
    let (parts, h) := visitAll probeOf (sizeOf call) call.enteredParts
      (fun _ hx => Expr.sizeOf_lt_of_mem_enteredParts hx) h
    (refillCall e call parts, h)
  | none => (e, h)

end Hoisting

end ProbeWeave.Weaving
