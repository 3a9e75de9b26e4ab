import ProbeWeave.Proofs.Hoisting.Overtaking

/-! # The effects performed when the moved calls run ahead

When calls are moved in order, a run of the temporaries' bindings followed by a run of what stays
performs the same effects, in the same order, as a run of the expression.
-/

namespace ProbeWeave.Weaving

open Syntax

/-- The sequences of effects performed by binding the temporaries of moved calls, one after the
other. -/
def PerformsMoves : List Move → List Place → Prop
  | [], t => t = []
  | m :: ms, t => ∃ first others, Performs m.hoist.bound first ∧ PerformsMoves ms others ∧
      t = first.map (m.place ++ ·) ++ others

theorem performsMoves_append {ms rs : List Move} {t : List Place} :
    PerformsMoves (ms ++ rs) t ↔
      ∃ first others, PerformsMoves ms first ∧ PerformsMoves rs others ∧ t = first ++ others := by
  induction ms generalizing t with
  | nil => simp [PerformsMoves]
  | cons m ms ih =>
    simp only [List.cons_append, PerformsMoves, ih]
    constructor
    · rintro ⟨a, bc, runs, ⟨b, c, first, others, rfl⟩, rfl⟩
      exact ⟨_, c, ⟨a, b, runs, first, rfl⟩, others, by simp⟩
    · rintro ⟨ab, c, ⟨a, b, runs, first, rfl⟩, others, rfl⟩
      exact ⟨a, b ++ c, runs, ⟨b, c, first, others, rfl⟩, by simp⟩

theorem performsMoves_below {path : Place} {ms : List Move} {t : List Place} :
    PerformsMoves (ms.map (·.below path)) t ↔
      ∃ u, PerformsMoves ms u ∧ t = u.map (path ++ ·) := by
  induction ms generalizing t with
  | nil => simp [PerformsMoves]
  | cons m ms ih =>
    simp only [List.map_cons, PerformsMoves, ih, Move.below_hoist, Move.below_place]
    constructor
    · rintro ⟨a, _, runs, ⟨b, others, rfl⟩, rfl⟩
      exact ⟨_, ⟨a, b, runs, others, rfl⟩, by simp⟩
    · rintro ⟨_, ⟨a, b, runs, others, rfl⟩, rfl⟩
      exact ⟨a, _, runs, ⟨b, others, rfl⟩, by simp⟩

theorem performs_name {id : String} {use : NameUse} {t : List Place} :
    Performs (.name id use) t ↔ t = [] := by
  rw [performs_iff]
  simp only [Expr.enteredParts, PerformsAll, exists_and_left, exists_eq_left, List.nil_append]
  constructor
  · rintro ⟨u, ⟨later, behind, scheduled, -, runs, rfl⟩, rfl⟩
    obtain rfl : later = [] := scheduled
    rw [performsEach_nil.mp runs]
    rfl
  · rintro rfl
    exact ⟨[], ⟨[], [], rfl, by simp, .nil, rfl⟩, rfl⟩

theorem performs_await {e : Expr} {t : List Place} :
    Performs (.await e) t ↔ ∃ u, Performs e u ∧ t = u.map (0 :: ·) ++ [[]] := by
  rw [performs_iff]
  simp only [Expr.enteredParts, PerformsAll]
  constructor
  · rintro ⟨_, _, ⟨u, _, runs, rfl, rfl⟩, ⟨later, behind, scheduled, -, each, rfl⟩, rfl⟩
    obtain rfl : later = [] := List.append_right_eq_self.mp scheduled
    rw [performsEach_nil.mp each]
    exact ⟨u, runs, by simp [Expr.ownEffect, isEffect]⟩
  · rintro ⟨u, runs, rfl⟩
    exact ⟨_, [[]], ⟨u, [], runs, rfl, rfl⟩, ⟨[], [], rfl, by simp, .nil, rfl⟩, by simp⟩

namespace Hoisting

variable {probeOf : Call → Option String}

/-- If something is moved out of later expressions, then nothing of an earlier one stays that has an
effect. -/
theorem nothing_stays {effects : Place → Prop} {n : Nat} {e : Expr} {rest : List Expr}
    {h : Hoisting} {done : List Place}
    (ordered : InOrder effects done ((movesEach probeOf n (e :: rest) h).map Move.place))
    (present : ∀ q ∈ e.effects, effects (n :: q)) (apart : ∀ d ∈ done, ∀ q, ¬ d <+: n :: q)
    (more : movesEach probeOf (n + 1) rest (visit probeOf e h).2 ≠ []) {t : List Place}
    (runs : Performs (visit probeOf e h).1 t) : t = [] := by
  obtain ⟨m, ms, later⟩ := List.exists_cons_of_ne_nil more
  obtain ⟨i, -, p, -, place, -⟩ := movesEach_at?_of (fun x _ => moves_at? x)
    (later ▸ List.mem_cons_self : m ∈ movesEach probeOf (n + 1) rest (visit probeOf e h).2)
  rw [movesEach_cons, later, List.map_append, inOrder_append] at ordered
  by_contra notEmpty
  obtain ⟨q, t, rfl⟩ := List.exists_cons_of_ne_nil notEmpty
  obtain ⟨kept, uncovered⟩ := keepsUncovered_visit e h q (runs.mem_effects List.mem_cons_self)
  have before : Place.Before (n :: q) m.place := by
    rw [place]
    exact .inl (by omega)
  rcases ordered.2.1 (n :: q) (present q kept) before with inside | ⟨d, member, covers⟩
  · rw [place, List.cons_prefix_cons] at inside
    omega
  · rcases List.mem_append.mp member with early | here
    · exact apart d early q covers
    · obtain ⟨m', moved, rfl⟩ := List.mem_map.mp here
      obtain ⟨m', moved', rfl⟩ := List.mem_map.mp moved
      exact uncovered m' moved' (List.cons_prefix_cons.mp covers).2

/-- A run of an expression splits into a run of its moved calls and a run of what stays. -/
def Splits (probeOf : Call → Option String) (e : Expr) : Prop :=
  ∀ h : Hoisting, InOrder (· ∈ e.effects) [] ((moves probeOf e h).map Move.place) →
    ∀ t, Performs e t ↔ ∃ ahead stays, PerformsMoves (moves probeOf e h) ahead ∧
      Performs (visit probeOf e h).1 stays ∧ t = ahead ++ stays

theorem splits_each {es : List Expr} (each : ∀ x ∈ es, Splits probeOf x)
    {effects : Place → Prop} {n : Nat} {h : Hoisting} {done : List Place}
    (ordered : InOrder effects done ((movesEach probeOf n es h).map Move.place))
    (present : ∀ i x q, es[i]? = some x → q ∈ x.effects → effects ((n + i) :: q))
    (apart : ∀ d ∈ done, ∀ i, n ≤ i → ∀ q, ¬ d <+: i :: q) (t : List Place) :
    PerformsAll n es t ↔ ∃ ahead stays, PerformsMoves (movesEach probeOf n es h) ahead ∧
      PerformsAll n (visitEach probeOf es h).1 stays ∧ t = ahead ++ stays := by
  induction es generalizing n h done t with
  | nil => simp [PerformsAll, PerformsMoves, visitEach]
  | cons e rest ih =>
    have places : ((moves probeOf e h).map (·.below [n])).map Move.place =
        ((moves probeOf e h).map Move.place).map (n :: ·) := by
      simp [Function.comp_def]
    have whole := ordered
    rw [movesEach_cons, List.map_append, inOrder_append, places] at ordered
    have first : InOrder (· ∈ e.effects) [] ((moves probeOf e h).map Move.place) :=
      (InOrder.operand (by simpa using ordered.1)
        fun d member q => apart d member n (Nat.le_refl n) q).mono fun q => present 0 e q rfl
    have others := ih (fun x member => each x (.tail _ member)) (n := n + 1) ordered.2
      (fun i x q found member => by
        have := present (i + 1) x q found member
        rwa [Nat.add_assoc, Nat.add_comm 1])
      (fun d member i le q covers => by
        rcases List.mem_append.mp member with early | here
        · exact apart d early i (by omega) q covers
        · obtain ⟨p, -, rfl⟩ := List.mem_map.mp here
          have := (List.cons_prefix_cons.mp covers).1
          omega)
    -- What stays of the first expression and what is moved out of the others are swapped: one of
    -- the two performs nothing.
    have swap : ∀ stays ahead, Performs (visit probeOf e h).1 stays →
        PerformsMoves (movesEach probeOf (n + 1) rest (visit probeOf e h).2) ahead →
        stays.map (n :: ·) ++ ahead = ahead ++ stays.map (n :: ·) := by
      intro stays ahead runs runsMoves
      by_cases none : movesEach probeOf (n + 1) rest (visit probeOf e h).2 = []
      · rw [none] at runsMoves
        rw [show ahead = [] from runsMoves, List.append_nil, List.nil_append]
      · rw [nothing_stays whole (fun q => present 0 e q rfl)
          (fun d member => apart d member n (Nat.le_refl n)) none runs]
        simp
    simp only [PerformsAll, visitEach, movesEach_cons, performsMoves_append, performsMoves_below,
      each e List.mem_cons_self h first, others]
    constructor
    · rintro ⟨_, _, ⟨a, b, runA, runB, rfl⟩, ⟨c, d, runC, runD, rfl⟩, rfl⟩
      refine ⟨_, _, ⟨_, c, ⟨a, runA, rfl⟩, runC, rfl⟩, ⟨b, d, runB, runD, rfl⟩, ?_⟩
      have swapped := swap b c runB runC
      simp only [List.map_append, List.append_assoc, List.singleton_append] at swapped ⊢
      rw [← List.append_assoc (b.map (n :: ·)) c, swapped, List.append_assoc]
    · rintro ⟨_, _, ⟨_, c, ⟨a, runA, rfl⟩, runC, rfl⟩, ⟨b, d, runB, runD, rfl⟩, rfl⟩
      refine ⟨_, _, ⟨a, b, runA, runB, rfl⟩, ⟨c, d, runC, runD, rfl⟩, ?_⟩
      have swapped := swap b c runB runC
      simp only [List.map_append, List.append_assoc, List.singleton_append] at swapped ⊢
      rw [← List.append_assoc (b.map (n :: ·)) c, swapped, List.append_assoc]

/-- A run of an expression whose operands are walked splits into a run of the calls moved out of them
and a run of the expression with what stays of them. -/
theorem splits_operands {c : Expr} (each : ∀ x ∈ c.enteredParts, Splits probeOf x) {h : Hoisting}
    (ordered : InOrder (· ∈ c.effects) [] ((operandMoves probeOf c h).map Move.place))
    (t : List Place) :
    Performs c t ↔ ∃ ahead stays, PerformsMoves (operandMoves probeOf c h) ahead ∧
      Performs (c.withEntered (visitEach probeOf c.enteredParts h).1) stays ∧ t = ahead ++ stays := by
  have fits : (visitEach probeOf c.enteredParts h).1.length = c.enteredParts.length :=
    length_visitEach ..
  have split := splits_each each ordered
    (fun i x q found member =>
      Expr.mem_effects.mpr (.inl ⟨i, x, q, getElem?_operands found, member, by rw [Nat.zero_add]⟩))
    (by simp)
  simp only [performs_iff (e := c), performs_iff (e := c.withEntered _), split,
    Expr.enteredParts_withEntered fits, performsRest_withEntered fits]
  constructor
  · rintro ⟨_, r, ⟨a, b, runA, runB, rfl⟩, rest, rfl⟩
    exact ⟨a, _, runA, ⟨b, r, runB, rest, rfl⟩, List.append_assoc ..⟩
  · rintro ⟨a, _, runA, ⟨b, r, runB, rest, rfl⟩, rfl⟩
    exact ⟨_, r, ⟨a, b, runA, runB, rfl⟩, rest, (List.append_assoc ..).symm⟩

/-- Moves out of an awaited call that are in order are in order for the call. -/
theorem inOrder_of_await {c : Expr} {ps : List Place}
    (ordered : InOrder (· ∈ (Expr.await c).effects) [] (ps.map (0 :: ·))) :
    InOrder (· ∈ c.effects) [] ps := by
  refine ordered.operand_first.mono fun q member => ?_
  exact Expr.mem_effects.mpr (.inl ⟨0, c, q, rfl, member, rfl⟩)

/-- A run of a call, awaited or not, splits into a run of the calls moved out of its operands and a
run of the call with what stays of them. -/
theorem splits_refillCall {e c : Expr} (call : innerCall? e = some c)
    (each : ∀ x ∈ c.enteredParts, Splits probeOf x) {h : Hoisting}
    (ordered : InOrder (· ∈ e.effects) []
      (((operandMoves probeOf c h).map (·.below (callPlace e))).map Move.place)) (t : List Place) :
    Performs e t ↔ ∃ ahead stays,
      PerformsMoves ((operandMoves probeOf c h).map (·.below (callPlace e))) ahead ∧
        Performs (refillCall e c (visitEach probeOf c.enteredParts h).1) stays ∧
          t = ahead ++ stays := by
  rcases innerCall?_eq_some call with rfl | rfl
  · obtain ⟨start, callee, arguments, keywords, rfl⟩ := innerCall?_isCall call
    have same : (operandMoves probeOf (.call start callee arguments keywords) h).map
        (·.below (callPlace (.call start callee arguments keywords))) =
          operandMoves probeOf (.call start callee arguments keywords) h :=
      List.map_id _
    rw [same] at ordered ⊢
    exact splits_operands each ordered t
  · have inner : InOrder (· ∈ c.effects) [] ((operandMoves probeOf c h).map Move.place) :=
      inOrder_of_await (by simpa [callPlace, Function.comp_def] using ordered)
    simp only [performs_await, refillCall, callPlace, performsMoves_below,
      splits_operands each inner]
    constructor
    · rintro ⟨_, ⟨a, b, runA, runB, rfl⟩, rfl⟩
      exact ⟨_, _, ⟨a, runA, rfl⟩, ⟨b, runB, rfl⟩, by simp⟩
    · rintro ⟨_, _, ⟨a, runA, rfl⟩, ⟨b, runB, rfl⟩, rfl⟩
      exact ⟨_, ⟨a, b, runA, runB, rfl⟩, by simp⟩

/-- If calls are moved in order, then a run of an expression splits into a run of its moved calls and
a run of what stays. -/
theorem splits_visit (e : Expr) : Splits probeOf e := by
  induction e using walk_induction with
  | step e operands inner =>
    intro h ordered t
    cases safe : h.safe with
    | false =>
      rw [moves_stopped e safe, visit_stopped e safe]
      simp [PerformsMoves]
    | true =>
      cases timed : timed? probeOf e with
      | none =>
        rw [moves_untimed timed] at ordered ⊢
        rw [visit_untimed timed]
        exact splits_operands operands ordered t
      | some found =>
        have call := innerCall?_of_timed? timed
        rw [moves_timed timed, List.map_append, inOrder_append] at ordered
        have split := splits_refillCall call (inner _ call) ordered.1
        rw [visit_timed timed, moves_timed timed]
        simp only [safe, if_true, performs_name, performsMoves_append, PerformsMoves]
        rw [split]
        constructor
        · rintro ⟨a, b, runA, runB, rfl⟩
          exact ⟨a ++ b, [], ⟨a, b, runA, ⟨b, [], runB, rfl, by simp⟩, rfl⟩, rfl, by simp⟩
        · rintro ⟨_, _, ⟨a, _, runA, ⟨b, _, runB, rfl, rfl⟩, rfl⟩, rfl, rfl⟩
          exact ⟨a, b, runA, runB, by simp⟩

end Hoisting

end ProbeWeave.Weaving
