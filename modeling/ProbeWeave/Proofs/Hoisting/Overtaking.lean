import ProbeWeave.Proofs.Hoisting.Moves

/-! # Which effects a moved call can overtake

Calls are moved in order when every effect that comes before a moved call is in that call or in one
moved earlier. The walk gives up moving once it passes an effect that stays, but two kinds of effects
it does not notice: binding the target of an assignment expression, and what the default values of a
function without a name do. No other effect is ever overtaken.
-/

namespace ProbeWeave.Weaving

open Syntax

/-- No call is moved ahead of an effect that comes before it: the effect is in the call itself or in
one moved earlier. The calls in the first list of places are moved already. -/
def InOrder (effects : Place → Prop) : List Place → List Place → Prop
  | _, [] => True
  | done, p :: later =>
    (∀ q, effects q → q.Before p → p <+: q ∨ ∃ d ∈ done, d <+: q) ∧
      InOrder effects (done ++ [p]) later

theorem inOrder_append {effects : Place → Prop} {done ps rs : List Place} :
    InOrder effects done (ps ++ rs) ↔
      InOrder effects done ps ∧ InOrder effects (done ++ ps) rs := by
  induction ps generalizing done with
  | nil => simp [InOrder]
  | cons p ps ih => simp [InOrder, ih, and_assoc]

theorem InOrder.mono {effects fewer : Place → Prop} (subset : ∀ q, fewer q → effects q)
    {done ps : List Place} (ordered : InOrder effects done ps) : InOrder fewer done ps := by
  induction ps generalizing done with
  | nil => trivial
  | cons p ps ih => exact ⟨fun q present => ordered.1 q (subset q present), ih ordered.2⟩

/-- Being in order splits over two kinds of effects. -/
theorem InOrder.union {effects left right : Place → Prop}
    (split : ∀ q, effects q → left q ∨ right q) {done ps : List Place}
    (first : InOrder left done ps) (second : InOrder right done ps) : InOrder effects done ps := by
  induction ps generalizing done with
  | nil => trivial
  | cons p ps ih =>
    refine ⟨fun q present before => ?_, ih first.2 second.2⟩
    rcases split q present with one | other
    · exact first.1 q one before
    · exact second.1 q other before

/-- Moves in order out of an operand are in order for the expression when the effects of the operands
before are in calls moved earlier. -/
theorem InOrder.below {effects : Place → Prop} {i : Nat} {done bef ps : List Place}
    (ordered : InOrder (fun q => effects (i :: q)) bef ps)
    (covered : ∀ j q, j < i → effects (j :: q) → ∃ d ∈ done, d <+: j :: q) :
    InOrder effects (done ++ bef.map (i :: ·)) (ps.map (i :: ·)) := by
  induction ps generalizing bef with
  | nil => trivial
  | cons p ps ih =>
    refine ⟨?_, ?_⟩
    · rintro (_ | ⟨j, q⟩) present before
      · cases before
      · rcases before with less | ⟨rfl, before⟩
        · obtain ⟨d, member, covers⟩ := covered j q less present
          exact .inr ⟨d, List.mem_append_left _ member, covers⟩
        · rcases ordered.1 q present before with inside | ⟨d, member, covers⟩
          · exact .inl (List.cons_prefix_cons.mpr ⟨rfl, inside⟩)
          · exact .inr ⟨j :: d, List.mem_append_right _ (List.mem_map_of_mem member),
              List.cons_prefix_cons.mpr ⟨rfl, covers⟩⟩
    · have next := ih ordered.2
      rwa [List.map_append, ← List.append_assoc] at next

/-- Moves in order are in order for every operand. -/
theorem InOrder.operand {effects : Place → Prop} {i : Nat} {done bef ps : List Place}
    (ordered : InOrder effects (done ++ bef.map (i :: ·)) (ps.map (i :: ·)))
    (apart : ∀ d ∈ done, ∀ q, ¬ d <+: i :: q) :
    InOrder (fun q => effects (i :: q)) bef ps := by
  induction ps generalizing bef with
  | nil => trivial
  | cons p ps ih =>
    refine ⟨fun q present before => ?_, ih ?_⟩
    · rcases ordered.1 (i :: q) present (.inr ⟨rfl, before⟩) with inside | ⟨d, member, covers⟩
      · exact .inl (List.cons_prefix_cons.mp inside).2
      · rcases List.mem_append.mp member with early | here
        · exact absurd covers (apart d early q)
        · obtain ⟨d, earlier, rfl⟩ := List.mem_map.mp here
          exact .inr ⟨d, earlier, (List.cons_prefix_cons.mp covers).2⟩
    · have next := ordered.2
      rwa [List.append_assoc, ← List.map_singleton (f := (i :: ·)), ← List.map_append] at next

/-- Moves out of the only operand with effects are in order when they are for the operand. -/
theorem InOrder.below_first {effects : Place → Prop} {i : Nat} {ps : List Place}
    (ordered : InOrder (fun q => effects (i :: q)) [] ps)
    (first : ∀ j q, j < i → ¬ effects (j :: q)) : InOrder effects [] (ps.map (i :: ·)) :=
  show InOrder effects ([] ++ ([] : List Place).map (i :: ·)) (ps.map (i :: ·)) from
    ordered.below fun j q less present => absurd present (first j q less)

theorem InOrder.operand_first {effects : Place → Prop} {i : Nat} {ps : List Place}
    (ordered : InOrder effects [] (ps.map (i :: ·))) : InOrder (fun q => effects (i :: q)) [] ps := by
  have ordered : InOrder effects ([] ++ ([] : List Place).map (i :: ·)) (ps.map (i :: ·)) := ordered
  exact ordered.operand (by simp)

namespace Hoisting

variable {probeOf : Call → Option String}

/-- An effect that the walk passes without noticing it: an assignment expression, or an effect in a
default value of a function without a name. -/
def Silent (e : Expr) (q : Place) : Prop :=
  (∃ target value, e.at? q = some (.named target value)) ∨
    ∃ p i r parameters body, q = p ++ i :: r ∧ e.at? p = some (.lambda parameters body)

/-- The effects that the walk notices. -/
def Loud (e : Expr) (q : Place) : Prop :=
  q ∈ e.effects ∧ ¬ Silent e q

theorem silent_of_operand {e x : Expr} {i : Nat} {q : Place} (found : e.operands[i]? = some x)
    (silent : Silent x q) : Silent e (i :: q) := by
  rcases silent with ⟨target, value, at_⟩ | ⟨p, j, r, parameters, body, rfl, at_⟩
  · exact .inl ⟨target, value, by rw [Expr.at?, found]; exact at_⟩
  · exact .inr ⟨i :: p, j, r, parameters, body, rfl, by rw [Expr.at?, found]; exact at_⟩

theorem Loud.operand {e x : Expr} {i : Nat} {q : Place} (found : e.operands[i]? = some x)
    (loud : Loud e (i :: q)) : Loud x q := by
  obtain ⟨effect, notSilent⟩ := loud
  refine ⟨?_, fun silent => notSilent (silent_of_operand found silent)⟩
  rcases Expr.mem_effects.mp effect with ⟨j, y, r, found', inner, same⟩ | ⟨nil, -⟩
  · cases same
    rw [found] at found'
    cases found'
    exact inner
  · cases nil

theorem safe_of_visit {e : Expr} {h : Hoisting} (safe : (visit probeOf e h).2.safe = true) :
    h.safe = true := by
  by_contra stopped
  rw [visit_stopped e (Bool.eq_false_iff.mpr stopped)] at safe
  exact stopped safe

theorem safe_of_visitEach {es : List Expr} {h : Hoisting}
    (safe : (visitEach probeOf es h).2.safe = true) : h.safe = true := by
  by_contra stopped
  rw [visitEach_stopped es (Bool.eq_false_iff.mpr stopped)] at safe
  exact stopped safe

/-- While the walk is safe, every effect that it notices was moved. -/
def Covers (probeOf : Call → Option String) (e : Expr) : Prop :=
  ∀ h : Hoisting, (visit probeOf e h).2.safe = true → ∀ q, Loud e q →
    ∃ m ∈ moves probeOf e h, m.place <+: q

theorem covers_each {es : List Expr} (each : ∀ x ∈ es, Covers probeOf x) {n : Nat} {h : Hoisting}
    (safe : (visitEach probeOf es h).2.safe = true) {i : Nat} {x : Expr} (found : es[i]? = some x)
    {q : Place} (loud : Loud x q) : ∃ m ∈ movesEach probeOf n es h, m.place <+: (n + i) :: q := by
  induction es generalizing n h i with
  | nil => cases found
  | cons e rest ih =>
    cases i with
    | zero =>
      obtain rfl : e = x := by simpa using found
      obtain ⟨m, moved, covers⟩ := each e List.mem_cons_self h (safe_of_visitEach safe) q loud
      exact ⟨_, List.mem_append_left _ (List.mem_map_of_mem moved),
        List.cons_prefix_cons.mpr ⟨rfl, covers⟩⟩
    | succ i =>
      obtain ⟨m, moved, covers⟩ := ih (fun x member => each x (.tail _ member)) (n := n + 1) safe found
      refine ⟨m, List.mem_append_right _ moved, ?_⟩
      rwa [Nat.add_assoc, Nat.add_comm 1] at covers

/-- An expression of which the walk moves nothing itself has, apart from its operands, only effects
that it does not notice or that stop the walk. -/
theorem covers_untimed {e : Expr} (untimed : timed? probeOf e = none)
    (operands : ∀ x ∈ e.enteredParts, Covers probeOf x) : Covers probeOf e := by
  intro h safe q loud
  rw [visit_untimed untimed] at safe
  rw [moves_untimed untimed]
  have passive : (isCallLike e || isYield e) = false := by
    by_contra active
    simp only [eq_true_of_ne_false active, if_true] at safe
    cases safe
  simp only [passive, Bool.false_eq_true, if_false] at safe
  have harmless : ¬ e.skippedParts.any hasEffects = true := by
    intro effects
    simp [skip, effects, unsafely] at safe
  simp only [skip, harmless, Bool.false_eq_true, if_false] at safe
  rcases Expr.mem_effects.mp loud.1 with ⟨i, x, q, found, inner, rfl⟩ | ⟨rfl, own⟩
  · by_cases entered : i < e.enteredParts.length
    · have found' : e.enteredParts[i]? = some x := by
        rw [← found, e.operands_eq, List.getElem?_append_left entered]
      have covered := covers_each operands (n := 0) safe found' (loud.operand found)
      rwa [Nat.zero_add] at covered
    · exfalso
      have further : x ∈ e.furtherOperands := by
        rw [e.operands_eq, List.getElem?_append_right (by omega)] at found
        exact List.mem_of_getElem? found
      have notLambda : ∀ ps body, e ≠ .lambda ps body := by
        rintro ps body rfl
        exact loud.2 (.inr ⟨[], i, q, ps, body, rfl, rfl⟩)
      apply harmless
      rw [List.any_eq_true]
      rcases Expr.skippedParts_of_further further notLambda with skipped | whole
      · exact ⟨x, skipped, Expr.hasEffects_of_mem_effects inner⟩
      · exact ⟨e, by rw [whole]; exact List.mem_singleton_self e,
          Expr.hasEffects_of_mem_effects loud.1⟩
  · exfalso
    cases e with
    | named target value => exact loud.2 (.inl ⟨target, value, rfl⟩)
    | call | await | yield | yieldFrom => simp [isCallLike, isYield] at passive
    | _ => simp [isEffect] at own

/-- While the walk over an expression is safe, every effect that it notices was moved. -/
theorem covers_visit (e : Expr) : Covers probeOf e := by
  induction e using walk_induction with
  | step e operands inner =>
    cases timed : timed? probeOf e with
    | none => exact covers_untimed timed operands
    | some found =>
      intro h safe q loud
      rw [moves_timed timed, safe_of_visit safe]
      exact ⟨_, List.mem_append_right _ List.mem_cons_self, List.nil_prefix⟩

/-! ## Noticed effects are not overtaken -/

theorem inOrder_each {es : List Expr}
    (each : ∀ x ∈ es, ∀ h : Hoisting,
      InOrder (Loud x) [] ((moves probeOf x h).map Move.place))
    {effects : Place → Prop} {n : Nat} {h : Hoisting} {done : List Place}
    (loud : ∀ i x q, es[i]? = some x → effects ((n + i) :: q) → Loud x q)
    (covered : h.safe = true → ∀ j q, j < n → effects (j :: q) → ∃ d ∈ done, d <+: j :: q) :
    InOrder effects done ((movesEach probeOf n es h).map Move.place) := by
  induction es generalizing n h done with
  | nil => trivial
  | cons e rest ih =>
    cases safe : h.safe with
    | false =>
      rw [movesEach_stopped n _ safe]
      trivial
    | true =>
      have places : ((moves probeOf e h).map (·.below [n])).map Move.place =
          ((moves probeOf e h).map Move.place).map (n :: ·) := by
        simp [Function.comp_def]
      rw [movesEach_cons, List.map_append, inOrder_append, places]
      constructor
      · have first := (each e List.mem_cons_self h).mono
          fun q present => loud 0 e q rfl present
        have below := first.below (covered safe)
        rwa [List.map_nil, List.append_nil] at below
      · refine ih (fun x member => each x (.tail _ member)) ?_ ?_
        · intro i x q found present
          refine loud (i + 1) x q found ?_
          rwa [Nat.add_assoc, Nat.add_comm 1] at present
        · intro safe' j q le present
          rcases Nat.lt_succ_iff_lt_or_eq.mp le with less | rfl
          · obtain ⟨d, member, covers⟩ := covered safe j q less present
            exact ⟨d, List.mem_append_left _ member, covers⟩
          · obtain ⟨m, moved, covers⟩ := covers_visit e h safe' q (loud 0 e q rfl present)
            exact ⟨j :: m.place, List.mem_append_right _
              (List.mem_map_of_mem (List.mem_map_of_mem moved)),
              List.cons_prefix_cons.mpr ⟨rfl, covers⟩⟩

theorem inOrder_operands {c : Expr}
    (each : ∀ x ∈ c.enteredParts, ∀ h : Hoisting,
      InOrder (Loud x) [] ((moves probeOf x h).map Move.place)) (h : Hoisting) :
    InOrder (Loud c) [] ((operandMoves probeOf c h).map Move.place) := by
  refine inOrder_each each (fun i x q found loud => ?_) (by simp)
  rw [Nat.zero_add] at loud
  exact loud.operand (getElem?_operands found)

/-- Moves in order out of a call are in order for what awaits it. -/
theorem inOrder_callPlace {e c : Expr} (call : innerCall? e = some c) {ms : List Move}
    (ordered : InOrder (Loud c) [] (ms.map Move.place)) :
    InOrder (Loud e) [] ((ms.map (·.below (callPlace e))).map Move.place) := by
  rcases innerCall?_eq_some call with rfl | rfl
  · obtain ⟨start, callee, arguments, keywords, rfl⟩ := innerCall?_isCall call
    simpa [callPlace, Function.comp_def] using ordered
  · have inner : InOrder (fun q => Loud (.await c) (0 :: q)) [] (ms.map Move.place) :=
      ordered.mono fun q loud => loud.operand rfl
    have below := inner.below_first fun j q less => absurd less (by omega)
    simpa [callPlace, Function.comp_def] using below

/-- The walk moves no call ahead of an effect that it notices. -/
theorem inOrder_moves (e : Expr) : ∀ h : Hoisting,
    InOrder (Loud e) [] ((moves probeOf e h).map Move.place) := by
  induction e using walk_induction with
  | step e operands inner =>
    intro h
    cases timed : timed? probeOf e with
    | none =>
      rw [moves_untimed timed]
      exact inOrder_operands operands h
    | some found =>
      have call := innerCall?_of_timed? timed
      rw [moves_timed timed, List.map_append, inOrder_append]
      refine ⟨inOrder_callPlace call (inOrder_operands (inner _ call) h), ?_⟩
      split
      · exact ⟨fun q _ _ => .inl List.nil_prefix, trivial⟩
      · trivial

end Hoisting

end ProbeWeave.Weaving
