import Mathlib.Data.List.Count
import ProbeWeave.Proofs.Evaluation.Effects

/-! # Places that certainly run

A place in an expression is certain if no operand on the way to it runs under a condition or
repeatedly, and none belongs to a function without a name. Whatever stands at a certain place runs
exactly once in every run of the expression.
-/

namespace ProbeWeave.Syntax

open Weaving

namespace Expr

/-- Whether an expression is a comprehension or a generator. -/
def isComprehension : Expr → Bool
  | listComprehension .. | setComprehension .. | dictComprehension .. | generator .. => true
  | _ => false

/-- Whether an expression decides which of its operands run. -/
def isConditional : Expr → Bool
  | boolean .. | conditional .. | compare .. => true
  | _ => false

/-- Whether the operand of a number may not run, or run more than once: an operand of `and` or `or`
behind the first, a branch, a comparand behind the first two, a part of a comprehension. A function
without a name has only such operands. -/
def Doubtful : Expr → Nat → Prop
  | boolean .., i | conditional .., i => 1 ≤ i
  | compare .., i => 2 ≤ i
  | lambda .., _ | listComprehension .., _ | setComprehension .., _ | dictComprehension .., _
  | generator .., _ => True
  | _, _ => False

/-- Whether the way to a place goes through no doubtful operand. -/
def Certain (e : Expr) : Place → Prop
  | [] => True
  | i :: p => ¬ e.Doubtful i ∧ ∃ x, e.operands[i]? = some x ∧ x.Certain p

/-- The operands that are not doubtful are those that are entered. -/
theorem not_doubtful_iff {e x : Expr} {i : Nat} (found : e.operands[i]? = some x) :
    ¬ e.Doubtful i ↔ i < e.enteredParts.length := by
  have bound := (List.getElem?_eq_some_iff.mp found).1
  cases e <;> simp_all [Doubtful, enteredParts, operands] <;> omega

theorem enteredParts_getElem? {e x : Expr} {i : Nat} :
    e.enteredParts[i]? = some x ↔ ¬ e.Doubtful i ∧ e.operands[i]? = some x := by
  constructor
  · intro entered
    have found : e.operands[i]? = some x := by
      rw [e.operands_eq, List.getElem?_append_left (List.getElem?_eq_some_iff.mp entered).1, entered]
    exact ⟨(not_doubtful_iff found).mpr (List.getElem?_eq_some_iff.mp entered).1, found⟩
  · rintro ⟨sure, found⟩
    have entered := (not_doubtful_iff found).mp sure
    rwa [e.operands_eq, List.getElem?_append_left entered] at found

theorem certain_cons {e : Expr} {i : Nat} {p : Place} :
    e.Certain (i :: p) ↔ ∃ x, e.enteredParts[i]? = some x ∧ x.Certain p := by
  simp only [Certain, enteredParts_getElem?, and_assoc, exists_and_left]

/-- The parts that are skipped are the doubtful operands, and comprehensions whole. -/
theorem any_skippedParts {e : Expr} : e.skippedParts.any hasEffects = true ↔
    (e.isComprehension = true ∧ hasEffects e = true) ∨
      ∃ i x, e.isConditional = true ∧ e.Doubtful i ∧ e.operands[i]? = some x ∧
        hasEffects x = true := by
  have among : ∀ (es : List Expr) (k : Nat), (es.drop k).any hasEffects = true ↔
      ∃ i x, k ≤ i ∧ es[i]? = some x ∧ hasEffects x = true := by
    intro es k
    simp only [List.any_eq_true, List.mem_iff_getElem?, List.getElem?_drop]
    constructor
    · rintro ⟨x, ⟨i, found⟩, effects⟩
      exact ⟨k + i, x, Nat.le_add_right k i, found, effects⟩
    · rintro ⟨i, x, le, found, effects⟩
      exact ⟨x, ⟨i - k, by rwa [Nat.add_sub_cancel' le]⟩, effects⟩
  cases e with
  | boolean op es => simpa [skippedParts, isComprehension, isConditional, Doubtful, operands] using among es 1
  | conditional test body otherwise =>
    simpa [skippedParts, isComprehension, isConditional, Doubtful, operands] using
      among [test, body, otherwise] 1
  | compare left ops comparators =>
    simpa [skippedParts, isComprehension, isConditional, Doubtful, operands] using
      among (left :: comparators) 2
  | _ => simp [skippedParts, isComprehension, isConditional]

end Expr

/-! ## What stands at a certain place runs once -/

theorem PerformsAll.le_of_mem {n : Nat} {es : List Expr} {t : List Place}
    (run : PerformsAll n es t) {i : Nat} {p : Place} (member : i :: p ∈ t) : n ≤ i := by
  induction es generalizing n t with
  | nil =>
    rw [show t = [] from run] at member
    cases member
  | cons e rest ih =>
    obtain ⟨first, others, -, runOthers, rfl⟩ := run
    rcases List.mem_append.mp member with here | later
    · obtain ⟨q, -, same⟩ := List.mem_map.mp here
      exact Nat.le_of_eq (List.cons.inj same).1
    · exact Nat.le_of_succ_le (ih runOthers later)

/-- A run of several expressions performs at a place in one of them what a run of that one does. -/
theorem PerformsAll.exists_count {n : Nat} {es : List Expr} {t : List Place}
    (run : PerformsAll n es t) {i : Nat} {x : Expr} (found : es[i]? = some x) :
    ∃ u, Performs x u ∧ ∀ p, t.count ((n + i) :: p) = u.count p := by
  have inside : ∀ (k : Nat) (u : List Place) (p : Place),
      (u.map (k :: ·)).count (k :: p) = u.count p := fun k u p =>
    List.count_map_of_injective u _ (fun _ _ same => (List.cons.inj same).2) p
  induction es generalizing n i t with
  | nil => cases found
  | cons e rest ih =>
    obtain ⟨first, others, runFirst, runOthers, rfl⟩ := run
    cases i with
    | zero =>
      cases found
      refine ⟨first, runFirst, fun p => ?_⟩
      have absent : others.count (n :: p) = 0 :=
        List.count_eq_zero.mpr fun member => absurd (runOthers.le_of_mem member) (by omega)
      rw [Nat.add_zero, List.count_append, absent, inside, Nat.add_zero]
    | succ i =>
      obtain ⟨u, runs, counts⟩ := ih runOthers found
      refine ⟨u, runs, fun p => ?_⟩
      have absent : (first.map (n :: ·)).count ((n + (i + 1)) :: p) = 0 := by
        refine List.count_eq_zero.mpr fun member => ?_
        obtain ⟨q, -, same⟩ := List.mem_map.mp member
        have := (List.cons.inj same).1
        omega
      rw [List.count_append, absent, Nat.zero_add, ← counts, Nat.add_assoc, Nat.add_comm 1]

/-- What some of several expressions perform is performed by one of those that are run. -/
theorem PerformsEach.mem_order {es : List Expr} {order : List Nat} {t : List Place}
    (run : PerformsEach es order t) {i : Nat} {p : Place} (member : i :: p ∈ t) : i ∈ order := by
  induction order generalizing t with
  | nil =>
    rw [performsEach_nil.mp run] at member
    cases member
  | cons k order ih =>
    obtain ⟨y, first, others, -, -, runOthers, rfl⟩ := performsEach_cons.mp run
    rcases List.mem_append.mp member with here | later
    · obtain ⟨q, -, same⟩ := List.mem_map.mp here
      exact (List.cons.inj same).1 ▸ List.mem_cons_self
    · exact .tail _ (ih runOthers later)

/-- Behind the operands that certainly run, nothing at a place in one of them is performed. -/
theorem PerformsRest.count_entered {e : Expr} {t : List Place} (run : PerformsRest e t) {i : Nat}
    (entered : i < e.enteredParts.length) (p : Place) : t.count (i :: p) = 0 := by
  obtain ⟨later, behind, -, high, runs, rfl⟩ := run
  refine List.count_eq_zero.mpr fun member => ?_
  rcases List.mem_append.mp member with operand | own
  · exact absurd (high i (runs.mem_order operand)) (by omega)
  · cases (Expr.mem_ownEffect.mp own).1

/-- An effect at a certain place is performed exactly once in every run. -/
theorem Performs.count_of_certain {e x : Expr} {p : Place} (certain : e.Certain p)
    (found : e.at? p = some x) (effect : isEffect (.expr x) = true) {t : List Place}
    (run : Performs e t) : t.count p = 1 := by
  induction p generalizing e t with
  | nil =>
    cases found
    cases run with
    | intro scheduled runs =>
      rename_i order behind
      have absent : behind.count [] = 0 := by
        refine List.count_eq_zero.mpr fun member => ?_
        obtain ⟨_, _, _, _, -, -, -, same⟩ := runs.mem member
        cases same
      rw [List.count_append, absent, Expr.ownEffect, effect]
      rfl
  | cons i p ih =>
    obtain ⟨y, entered, inner⟩ := Expr.certain_cons.mp certain
    obtain ⟨first, behind, runFirst, rest, rfl⟩ := performs_iff.mp run
    obtain ⟨u, runs, counts⟩ := runFirst.exists_count entered
    rw [Expr.at?, (Expr.enteredParts_getElem?.mp entered).2] at found
    rw [List.count_append, rest.count_entered (List.getElem?_eq_some_iff.mp entered).1, Nat.add_zero,
      ← Nat.zero_add i, counts]
    exact ih inner found runs

end ProbeWeave.Syntax
