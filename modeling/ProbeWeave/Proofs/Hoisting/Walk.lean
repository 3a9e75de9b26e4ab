import ProbeWeave.Weaving.Hoist

/-! # The walk over an expression, one step at a time

`visitEach` is the walk over several expressions without the bound that `visitAll` carries for its
termination, and the equations of `visit` are stated with it. `walk_induction` follows the walk: what
holds of an expression once it holds of the operands that the walk enters holds of all.
-/

namespace ProbeWeave.Weaving

open Syntax

theorem innerCall?_eq_some {e c : Expr} (inner : innerCall? e = some c) :
    e = c ∨ e = .await c := by
  unfold innerCall? at inner
  cases e with
  | await value => cases value <;> simp_all [Expr.unwrapCall?, Expr.asCall?, Call.toExpr]
  | _ => simp_all [Expr.unwrapCall?, Expr.asCall?, Call.toExpr]

theorem innerCall?_isCall {e c : Expr} (inner : innerCall? e = some c) :
    ∃ start callee arguments keywords, c = .call start callee arguments keywords := by
  unfold innerCall? at inner
  obtain ⟨call, -, rfl⟩ := Option.map_eq_some_iff.mp inner
  exact ⟨_, _, _, _, rfl⟩

/-- The operands of a call put back in their places give the call, awaited or not. -/
theorem refillCall_enteredParts {e c : Expr} (inner : innerCall? e = some c) :
    refillCall e c c.enteredParts = e := by
  rcases innerCall?_eq_some inner with rfl | rfl
  · obtain ⟨start, callee, arguments, keywords, rfl⟩ := innerCall?_isCall inner
    exact Expr.withEntered_enteredParts (.call start callee arguments keywords)
  · exact congrArg Expr.await c.withEntered_enteredParts

namespace Hoisting

variable {probeOf : Call → Option String}

theorem innerCall?_of_timed? {e c : Expr} {probe : String}
    (timed : timed? probeOf e = some (c, probe)) : innerCall? e = some c := by
  unfold timed? at timed
  unfold innerCall?
  split at timed <;> simp_all

/-- What holds of an expression once it holds of the operands of the expression, and of those of the
call that the expression is, holds of all expressions. -/
theorem walk_induction {motive : Expr → Prop}
    (step : ∀ e, (∀ x ∈ e.enteredParts, motive x) →
      (∀ c, innerCall? e = some c → ∀ x ∈ c.enteredParts, motive x) → motive e) (e : Expr) :
    motive e := by
  refine step e (fun x member => ?_) fun c inner x member => ?_
  · have := Expr.sizeOf_lt_of_mem_enteredParts member
    exact walk_induction step x
  · have := Expr.sizeOf_lt_of_mem_enteredParts member
    have := sizeOf_innerCall_le inner
    exact walk_induction step x
termination_by sizeOf e

/-- Walks expressions one after the other. -/
def visitEach (probeOf : Call → Option String) : List Expr → Hoisting → List Expr × Hoisting
  | [], h => ([], h)
  | e :: rest, h =>
    let (first, h) := visit probeOf e h
    let (others, h) := visitEach probeOf rest h
    (first :: others, h)

theorem visitAll_eq (bound : Nat) (es : List Expr) (small : ∀ e ∈ es, sizeOf e < bound)
    (h : Hoisting) : visitAll probeOf bound es small h = visitEach probeOf es h := by
  induction es generalizing h with
  | nil => rw [visitAll, visitEach]
  | cons e rest ih => simp only [visitAll, visitEach, ih]

theorem visit_timed {e c : Expr} {probe : String} (timed : timed? probeOf e = some (c, probe))
    (h : Hoisting) :
    visit probeOf e h =
      let walked := visitEach probeOf c.enteredParts h
      let rest := refillCall e c walked.1
      if h.safe then
        (.name walked.2.supply.next.1 .load, (walked.2.record e rest probe).2)
      else (rest, walked.2.unsafely) := by
  rw [visit]
  split
  · rename_i c' probe' timed'
    rw [timed] at timed'
    cases timed'
    rw [visitAll_eq]
    rfl
  · rename_i untimed
    rw [timed] at untimed
    cases untimed

theorem visit_untimed {e : Expr} (untimed : timed? probeOf e = none) (h : Hoisting) :
    visit probeOf e h =
      let walked := visitEach probeOf e.enteredParts h
      let after := walked.2.skip e.skippedParts
      (e.withEntered walked.1, if isCallLike e || isYield e then after.unsafely else after) := by
  rw [visit]
  split
  · rename_i timed
    rw [untimed] at timed
    cases timed
  · rw [visitAll_eq]

theorem visit_name (id : String) (use : NameUse) (h : Hoisting) :
    visit probeOf (.name id use) h = (.name id use, h) := by
  rw [visit_untimed rfl]
  rfl

theorem visitOperands_eq (e : Expr) (h : Hoisting) :
    visitOperands probeOf e h =
      match innerCall? e with
      | some c =>
        let walked := visitEach probeOf c.enteredParts h
        (refillCall e c walked.1, walked.2)
      | none => (e, h) := by
  rw [visitOperands]
  split <;> simp only [visitAll_eq, *]

theorem length_visitEach (es : List Expr) (h : Hoisting) :
    (visitEach probeOf es h).1.length = es.length := by
  induction es generalizing h with
  | nil => rfl
  | cons e rest ih => simp [visitEach, ih]

/-! ## Nothing is moved any more once the walk is unsafe -/

theorem unsafely_of_stopped {h : Hoisting} (stopped : h.safe = false) : h.unsafely = h := by
  cases h
  cases stopped
  rfl

theorem skip_of_stopped {h : Hoisting} (stopped : h.safe = false) (parts : List Expr) :
    h.skip parts = h := by
  rw [skip, unsafely_of_stopped stopped, ite_self]

/-- An unsafe walk over an expression leaves it as it is, and nothing is recorded. -/
theorem visit_stopped (e : Expr) : ∀ {h : Hoisting}, h.safe = false → visit probeOf e h = (e, h) := by
  have each : ∀ es : List Expr,
      (∀ x ∈ es, ∀ {h : Hoisting}, h.safe = false → visit probeOf x h = (x, h)) →
      ∀ {h : Hoisting}, h.safe = false → visitEach probeOf es h = (es, h) := by
    intro es
    induction es with
    | nil => exact fun _ _ _ => rfl
    | cons e rest ih =>
      intro all h stopped
      simp only [visitEach, all e List.mem_cons_self stopped,
        ih (fun x member => all x (.tail _ member)) stopped]
  induction e using walk_induction with
  | step e operands inner =>
    intro h stopped
    cases timed : timed? probeOf e with
    | some found =>
      obtain ⟨c, probe⟩ := found
      have call := innerCall?_of_timed? timed
      rw [visit_timed timed, each _ (inner c call) stopped]
      simp only [stopped, Bool.false_eq_true, if_false, unsafely_of_stopped stopped,
        refillCall_enteredParts call]
    | none =>
      rw [visit_untimed timed, each _ operands stopped]
      simp only [skip_of_stopped stopped, unsafely_of_stopped stopped, ite_self,
        Expr.withEntered_enteredParts]

theorem visitEach_stopped (es : List Expr) {h : Hoisting} (stopped : h.safe = false) :
    visitEach probeOf es h = (es, h) := by
  induction es with
  | nil => rfl
  | cons e rest ih => simp only [visitEach, visit_stopped e stopped, ih]

end Hoisting

end ProbeWeave.Weaving
