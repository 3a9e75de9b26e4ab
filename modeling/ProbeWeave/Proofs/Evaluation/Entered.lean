import ProbeWeave.Proofs.Evaluation.Order

/-! # The operands that a run enters first

A run of an expression begins with the operands that certainly run, each of them once and in their
order. What comes behind, `PerformsRest`, does not depend on those operands: when other expressions
are put in their places, it stays the same.
-/

namespace ProbeWeave.Syntax

open Weaving

namespace Expr

/-- The operands that do not certainly run exactly once, and the default values of parameters. -/
def furtherOperands : Expr → List Expr
  | boolean _ operands => operands.drop 1
  | lambda parameters _ => parameters.defaults
  | conditional _ body otherwise => [body, otherwise]
  | listComprehension element clauses | setComprehension element clauses
  | generator element clauses => clauses.flatMap Clause.parts ++ [element]
  | dictComprehension key value clauses => clauses.flatMap Clause.parts ++ [key, value]
  | compare _ _ comparators => comparators.drop 1
  | _ => []

/-- The operands that certainly run come first. -/
theorem operands_eq (e : Expr) : e.operands = e.enteredParts ++ e.furtherOperands := by
  cases e with
  | boolean op operands => exact (List.take_append_drop 1 operands).symm
  | compare left ops comparators => exact congrArg (left :: ·) (List.take_append_drop 1 _).symm
  | _ => simp [operands, enteredParts, furtherOperands]

/-- The walk meets the effects of further operands among the parts that it skips, except in
functions without a name. -/
theorem skippedParts_of_further {e x : Expr} (member : x ∈ e.furtherOperands)
    (notLambda : ∀ ps body, e ≠ lambda ps body) : x ∈ e.skippedParts ∨ e.skippedParts = [e] := by
  cases e <;> simp_all [furtherOperands, skippedParts]

section Replaced

variable {e : Expr} {parts : List Expr} (fits : parts.length = e.enteredParts.length)
include fits

theorem furtherOperands_withEntered : (e.withEntered parts).furtherOperands = e.furtherOperands := by
  fun_cases withEntered e parts with
  | case13 left ops comparators newLeft first =>
    have one : first.length = (comparators.take 1).length := by simpa [enteredParts] using fits
    cases comparators with
    | nil => simp_all [furtherOperands]
    | cons =>
      obtain ⟨only, rfl⟩ := List.length_eq_one_iff.mp (one.trans (by simp))
      rfl
  | _ => rfl

theorem isEffect_withEntered : isEffect (.expr (e.withEntered parts)) = isEffect (.expr e) := by
  fun_cases withEntered e parts <;> rfl

theorem length_operands_withEntered :
    (e.withEntered parts).operands.length = e.operands.length := by
  rw [operands_eq, operands_eq, furtherOperands_withEntered fits, enteredParts_withEntered fits]
  simp [fits]

theorem schedule_withEntered (order : List Nat) :
    (e.withEntered parts).Schedule order ↔ e.Schedule order := by
  have same := length_operands_withEntered fits
  fun_cases withEntered e parts with
  | case13 left ops comparators newLeft first =>
    simp only [operands, withEntered, List.length_cons, Nat.add_right_cancel_iff] at same
    simp only [Schedule, same]
  | _ => simp_all [Schedule, withEntered]

end Replaced

/-- A run goes through the operands that certainly run before it comes to any other. -/
theorem schedule_begins {e : Expr} {order : List Nat} (scheduled : e.Schedule order) :
    ∃ later, order = List.range e.enteredParts.length ++ later ∧
      ∀ i ∈ later, e.enteredParts.length ≤ i := by
  have counted : ∀ k n, k ≤ n → ∃ later, List.range n = List.range k ++ later ∧
      ∀ i ∈ later, k ≤ i := by
    intro k n le
    refine ⟨List.range' k (n - k), ?_, fun i member => (List.mem_range'_1.mp member).1⟩
    have append := List.range'_append_1 (s := 0) (m := k) (n := n - k)
    rwa [Nat.zero_add, Nat.add_sub_cancel' le, ← List.range_eq_range', ← List.range_eq_range',
      eq_comm] at append
  have whole : ∀ n, order = List.range (e.enteredParts.length + n) →
      ∃ later, order = List.range e.enteredParts.length ++ later ∧
        ∀ i ∈ later, e.enteredParts.length ≤ i := by
    rintro n rfl
    exact counted _ _ (Nat.le_add_right _ n)
  cases e with
  | boolean op operands =>
    obtain ⟨n, low, -, rfl⟩ := scheduled
    exact counted _ n (by simpa [enteredParts] using low)
  | compare left ops comparators =>
    obtain ⟨n, low, -, rfl⟩ := scheduled
    exact counted _ (n + 1) (by simpa [enteredParts] using low)
  | conditional test body otherwise =>
    rcases scheduled with rfl | rfl
    · exact ⟨[1], rfl, by simp [enteredParts]⟩
    · exact ⟨[2], rfl, by simp [enteredParts]⟩
  | listComprehension | setComprehension | dictComprehension | generator =>
    exact ⟨order, rfl, fun i _ => Nat.zero_le i⟩
  | lambda parameters body => exact ⟨order, rfl, fun i _ => Nat.zero_le i⟩
  | _ => exact whole 0 scheduled

end Expr

/-- The sequences of effects performed when all of several expressions run, one after the other and
numbered from a given number on. -/
def PerformsAll (n : Nat) : List Expr → List Place → Prop
  | [], t => t = []
  | e :: es, t => ∃ first others, Performs e first ∧ PerformsAll (n + 1) es others ∧
      t = first.map (n :: ·) ++ others

/-- What a run of an expression performs behind the operands that certainly run. -/
def PerformsRest (e : Expr) (t : List Place) : Prop :=
  ∃ later behind, e.Schedule (List.range e.enteredParts.length ++ later) ∧
    (∀ i ∈ later, e.enteredParts.length ≤ i) ∧ PerformsEach e.operands later behind ∧
    t = behind ++ e.ownEffect

theorem performsEach_nil {es : List Expr} {t : List Place} : PerformsEach es [] t ↔ t = [] := by
  constructor
  · rintro ⟨⟩
    rfl
  · rintro rfl
    exact .nil

theorem performsEach_cons {es : List Expr} {i : Nat} {order : List Nat} {t : List Place} :
    PerformsEach es (i :: order) t ↔ ∃ e first others, es[i]? = some e ∧ Performs e first ∧
      PerformsEach es order others ∧ t = first.map (i :: ·) ++ others := by
  constructor
  · rintro ⟨⟩
    exact ⟨_, _, _, ‹_›, ‹_›, ‹_›, rfl⟩
  · rintro ⟨e, first, others, found, run, rest, rfl⟩
    exact .cons found run rest

theorem performsEach_append {es : List Expr} {order more : List Nat} {t : List Place} :
    PerformsEach es (order ++ more) t ↔
      ∃ first others, PerformsEach es order first ∧ PerformsEach es more others ∧
        t = first ++ others := by
  induction order generalizing t with
  | nil => simp [performsEach_nil]
  | cons i order ih =>
    simp only [List.cons_append, performsEach_cons, ih]
    constructor
    · rintro ⟨e, a, bc, found, run, ⟨b, c, rest, last, rfl⟩, rfl⟩
      exact ⟨_, c, ⟨e, a, b, found, run, rest, rfl⟩, last, by simp⟩
    · rintro ⟨ab, c, ⟨e, a, b, found, run, rest, rfl⟩, last, rfl⟩
      exact ⟨e, a, b ++ c, found, run, ⟨b, c, rest, last, rfl⟩, by simp⟩

/-- Only the operands that are run matter. -/
theorem performsEach_congr {es es' : List Expr} {order : List Nat} {t : List Place}
    (same : ∀ i ∈ order, es'[i]? = es[i]?) : PerformsEach es' order t ↔ PerformsEach es order t := by
  induction order generalizing t with
  | nil => simp [performsEach_nil]
  | cons i order ih =>
    simp only [performsEach_cons, same i List.mem_cons_self,
      ih fun j member => same j (List.mem_cons_of_mem _ member)]

theorem performsEach_range' (done es rest : List Expr) {t : List Place} :
    PerformsEach (done ++ es ++ rest) (List.range' done.length es.length) t ↔
      PerformsAll done.length es t := by
  induction es generalizing done t with
  | nil => simp [performsEach_nil, PerformsAll]
  | cons e es ih =>
    have next := fun t => ih (done ++ [e]) (t := t)
    simp only [List.append_assoc, List.cons_append, List.nil_append, List.length_append,
      List.length_singleton] at next
    simp only [List.length_cons, List.range'_succ, performsEach_cons, PerformsAll,
      List.append_assoc, List.cons_append, next]
    simp

/-- A run of an expression is a run of the operands that certainly run and then of the rest. -/
theorem performs_iff {e : Expr} {t : List Place} :
    Performs e t ↔ ∃ first behind, PerformsAll 0 e.enteredParts first ∧ PerformsRest e behind ∧
      t = first ++ behind := by
  have entered : ∀ first, PerformsEach e.operands (List.range e.enteredParts.length) first ↔
      PerformsAll 0 e.enteredParts first := by
    intro first
    have all := performsEach_range' [] e.enteredParts e.furtherOperands (t := first)
    rwa [List.nil_append, ← e.operands_eq, List.length_nil, ← List.range_eq_range'] at all
  constructor
  · rintro ⟨scheduled, run⟩
    obtain ⟨later, rfl, high⟩ := Expr.schedule_begins scheduled
    obtain ⟨first, behind, runFirst, runBehind, rfl⟩ := performsEach_append.mp run
    exact ⟨first, behind ++ e.ownEffect, (entered first).mp runFirst,
      ⟨later, behind, scheduled, high, runBehind, rfl⟩, by simp⟩
  · rintro ⟨first, _, runFirst, ⟨later, behind, scheduled, -, runBehind, rfl⟩, rfl⟩
    rw [← List.append_assoc]
    exact .intro scheduled
      (performsEach_append.mpr ⟨first, behind, (entered first).mpr runFirst, runBehind, rfl⟩)

/-- What comes behind the operands that certainly run does not depend on them. -/
theorem performsRest_withEntered {e : Expr} {parts : List Expr} {t : List Place}
    (fits : parts.length = e.enteredParts.length) :
    PerformsRest (e.withEntered parts) t ↔ PerformsRest e t := by
  have own : (e.withEntered parts).ownEffect = e.ownEffect := by
    simp only [Expr.ownEffect, Expr.isEffect_withEntered fits]
  have each : ∀ later behind, (∀ i ∈ later, e.enteredParts.length ≤ i) →
      (PerformsEach (e.withEntered parts).operands later behind ↔
        PerformsEach e.operands later behind) := by
    intro later behind high
    refine performsEach_congr fun i member => ?_
    rw [Expr.operands_eq, Expr.operands_eq, Expr.enteredParts_withEntered fits,
      Expr.furtherOperands_withEntered fits,
      List.getElem?_append_right (fits ▸ high i member), List.getElem?_append_right (high i member), fits]
  simp only [PerformsRest, Expr.enteredParts_withEntered fits, Expr.schedule_withEntered fits, own,
    fits]
  constructor <;> rintro ⟨later, behind, scheduled, high, run, rfl⟩
  · exact ⟨later, behind, scheduled, high, (each later behind high).mp run, rfl⟩
  · exact ⟨later, behind, scheduled, high, (each later behind high).mpr run, rfl⟩

end ProbeWeave.Syntax
