import ProbeWeave.Proofs.Evaluation.Effects
import ProbeWeave.Proofs.Hoisting.Walk

/-! # Where the moved calls stand

The walk records the calls that it moves but not their places. `moves` gives both, in the order in
which the calls are recorded, and what stays of an expression has only effects that are in no call
moved out of it.
-/

namespace ProbeWeave.Weaving

open Syntax

/-- A call that is moved out of an expression: where it stands and what is recorded for it. -/
structure Move where
  place : Place
  hoist : Hoist

/-- A move out of an expression that stands at a place of another. -/
def Move.below (path : Place) (m : Move) : Move :=
  { m with place := path ++ m.place }

@[simp]
theorem Move.below_place (path : Place) (m : Move) : (m.below path).place = path ++ m.place :=
  rfl

@[simp]
theorem Move.below_hoist (path : Place) (m : Move) : (m.below path).hoist = m.hoist :=
  rfl

/-- The place of the call that an expression is, awaited or not. -/
def callPlace : Expr → Place
  | .await _ => [0]
  | _ => []

namespace Hoisting

variable (probeOf : Call → Option String)

/-- The moves of a walk over several expressions, numbered from a given number on, when the moves of
the walk over each of them are given. -/
def gather : Nat → List (Expr × (Hoisting → List Move)) → Hoisting → List Move
  | _, [], _ => []
  | n, (e, movesOf) :: rest, h =>
    (movesOf h).map (·.below [n]) ++ gather (n + 1) rest (visit probeOf e h).2

/-- The moves of the walk over an expression. -/
def moves (e : Expr) (h : Hoisting) : List Move :=
  match timed : timed? probeOf e with
  | some (c, probe) =>
    let walked := visitEach probeOf c.enteredParts h
    (gather probeOf 0 (c.enteredParts.attach.map fun ⟨x, _⟩ => (x, moves x)) h).map
        (·.below (callPlace e)) ++
      if h.safe then
        [⟨[], ⟨e, refillCall e c walked.1, probe, walked.2.supply.next.1⟩⟩]
      else []
  | none => gather probeOf 0 (e.enteredParts.attach.map fun ⟨x, _⟩ => (x, moves x)) h
termination_by sizeOf e
decreasing_by
  · exact Nat.lt_of_lt_of_le (Expr.sizeOf_lt_of_mem_enteredParts ‹_›) (sizeOf_timed_le timed)
  · exact Expr.sizeOf_lt_of_mem_enteredParts ‹_›

/-- The moves of the walk over several expressions, numbered from a given number on. -/
def movesEach (n : Nat) (es : List Expr) (h : Hoisting) : List Move :=
  gather probeOf n (es.map fun x => (x, moves probeOf x)) h

/-- The moves of the walk over the operands that certainly run. -/
def operandMoves (e : Expr) (h : Hoisting) : List Move :=
  movesEach probeOf 0 e.enteredParts h

/-- The moves of the walk over the operands of a call, awaited or not. -/
def callMoves (e : Expr) (h : Hoisting) : List Move :=
  match innerCall? e with
  | some c => (operandMoves probeOf c h).map (·.below (callPlace e))
  | none => []

variable {probeOf}

@[simp]
theorem movesEach_nil (n : Nat) (h : Hoisting) : movesEach probeOf n [] h = [] :=
  rfl

@[simp]
theorem movesEach_cons (n : Nat) (e : Expr) (rest : List Expr) (h : Hoisting) :
    movesEach probeOf n (e :: rest) h =
      (moves probeOf e h).map (·.below [n]) ++
        movesEach probeOf (n + 1) rest (visit probeOf e h).2 :=
  rfl

theorem moves_timed {e c : Expr} {probe : String} (timed : timed? probeOf e = some (c, probe))
    (h : Hoisting) :
    moves probeOf e h =
      let walked := visitEach probeOf c.enteredParts h
      (operandMoves probeOf c h).map (·.below (callPlace e)) ++
        if h.safe then
          [⟨[], ⟨e, refillCall e c walked.1, probe, walked.2.supply.next.1⟩⟩]
        else [] := by
  have unattached := List.attach_map_val (l := c.enteredParts) (f := fun x => (x, moves probeOf x))
  rw [moves]
  split
  · rename_i timed'
    rw [timed] at timed'
    cases timed'
    rw [unattached]
    rfl
  · rename_i untimed
    rw [timed] at untimed
    cases untimed

theorem moves_untimed {e : Expr} (untimed : timed? probeOf e = none) (h : Hoisting) :
    moves probeOf e h = operandMoves probeOf e h := by
  have unattached := List.attach_map_val (l := e.enteredParts) (f := fun x => (x, moves probeOf x))
  rw [moves]
  split
  · rename_i timed
    rw [untimed] at timed
    cases timed
  · rw [unattached]
    rfl

theorem movesEach_stopped_of {es : List Expr}
    (each : ∀ x ∈ es, ∀ {h : Hoisting}, h.safe = false → moves probeOf x h = []) (n : Nat)
    {h : Hoisting} (stopped : h.safe = false) : movesEach probeOf n es h = [] := by
  induction es generalizing n with
  | nil => rfl
  | cons e rest ih =>
    rw [movesEach_cons, visit_stopped e stopped, each e List.mem_cons_self stopped,
      ih (fun x member => each x (.tail _ member))]
    rfl

/-- An unsafe walk moves nothing. -/
theorem moves_stopped (e : Expr) : ∀ {h : Hoisting}, h.safe = false → moves probeOf e h = [] := by
  induction e using walk_induction with
  | step e operands inner =>
    intro h stopped
    cases timed : timed? probeOf e with
    | some found =>
      have call := innerCall?_of_timed? timed
      rw [moves_timed timed, operandMoves, movesEach_stopped_of (inner _ call) 0 stopped]
      simp [stopped]
    | none => rw [moves_untimed timed, operandMoves, movesEach_stopped_of operands 0 stopped]

theorem movesEach_stopped (n : Nat) (es : List Expr) {h : Hoisting} (stopped : h.safe = false) :
    movesEach probeOf n es h = [] :=
  movesEach_stopped_of (fun x _ => moves_stopped x) n stopped

/-! ## The moves are what the walk records -/

theorem visitEach_hoists_of {es : List Expr}
    (each : ∀ x ∈ es, ∀ h : Hoisting,
      (visit probeOf x h).2.hoists = h.hoists ++ (moves probeOf x h).map Move.hoist)
    (n : Nat) (h : Hoisting) :
    (visitEach probeOf es h).2.hoists = h.hoists ++ (movesEach probeOf n es h).map Move.hoist := by
  induction es generalizing n h with
  | nil => simp [visitEach]
  | cons e rest ih =>
    simp [visitEach, ih (fun x member => each x (.tail _ member)) (n + 1),
      each e List.mem_cons_self]

theorem unsafely_hoists (h : Hoisting) : h.unsafely.hoists = h.hoists :=
  rfl

theorem skip_hoists (h : Hoisting) (parts : List Expr) : (h.skip parts).hoists = h.hoists := by
  unfold skip
  split <;> rfl

/-- What the walk records for an expression are its moves. -/
theorem visit_hoists (e : Expr) : ∀ h : Hoisting,
    (visit probeOf e h).2.hoists = h.hoists ++ (moves probeOf e h).map Move.hoist := by
  induction e using walk_induction with
  | step e operands inner =>
    intro h
    cases timed : timed? probeOf e with
    | some found =>
      have recorded := visitEach_hoists_of (inner _ (innerCall?_of_timed? timed)) 0 h
      rw [visit_timed timed, moves_timed timed]
      cases h.safe with
      | true => simp [record, recorded, operandMoves]
      | false => simp [recorded, operandMoves, unsafely_hoists]
    | none =>
      rw [visit_untimed timed, moves_untimed timed]
      simp only [apply_ite Hoisting.hoists, unsafely_hoists, skip_hoists, ite_self]
      exact visitEach_hoists_of operands 0 h

theorem visitEach_hoists (n : Nat) (es : List Expr) (h : Hoisting) :
    (visitEach probeOf es h).2.hoists = h.hoists ++ (movesEach probeOf n es h).map Move.hoist :=
  visitEach_hoists_of (fun x _ => visit_hoists x) n h

/-! ## The moved calls stand at their places -/

theorem at?_callPlace {e c : Expr} (call : innerCall? e = some c) : e.at? (callPlace e) = some c := by
  rcases innerCall?_eq_some call with rfl | rfl
  · obtain ⟨start, callee, arguments, keywords, rfl⟩ := innerCall?_isCall call
    rfl
  · simp [callPlace, Expr.at?, Expr.operands]

theorem at?_append (e : Expr) (p q : Place) :
    e.at? (p ++ q) = (e.at? p).bind fun x => x.at? q := by
  induction p generalizing e with
  | nil => rfl
  | cons i p ih =>
    simp only [List.cons_append, Expr.at?, Option.bind_assoc]
    exact congrArg _ (funext ih)

theorem movesEach_at?_of {es : List Expr}
    (each : ∀ x ∈ es, ∀ h : Hoisting, ∀ m ∈ moves probeOf x h, x.at? m.place = some m.hoist.call)
    {n : Nat} {h : Hoisting} {m : Move} (member : m ∈ movesEach probeOf n es h) :
    ∃ i x p, es[i]? = some x ∧ m.place = (n + i) :: p ∧ x.at? p = some m.hoist.call := by
  induction es generalizing n h with
  | nil => cases member
  | cons e rest ih =>
    rcases List.mem_append.mp member with here | later
    · obtain ⟨m, inner, rfl⟩ := List.mem_map.mp here
      exact ⟨0, e, m.place, rfl, rfl, each e List.mem_cons_self h m inner⟩
    · obtain ⟨i, x, p, found, place, at_⟩ := ih (fun x member => each x (.tail _ member)) later
      exact ⟨i + 1, x, p, found, by rw [place, Nat.add_assoc, Nat.add_comm 1], at_⟩

theorem getElem?_operands {e x : Expr} {i : Nat} (found : e.enteredParts[i]? = some x) :
    e.operands[i]? = some x := by
  rw [e.operands_eq, List.getElem?_append_left (List.getElem?_eq_some_iff.mp found).1, found]

theorem operandMoves_at?_of {c : Expr}
    (each : ∀ x ∈ c.enteredParts, ∀ h : Hoisting, ∀ m ∈ moves probeOf x h,
      x.at? m.place = some m.hoist.call) {h : Hoisting} {m : Move}
    (member : m ∈ operandMoves probeOf c h) : c.at? m.place = some m.hoist.call := by
  obtain ⟨i, x, p, found, place, at_⟩ := movesEach_at?_of each member
  rw [place, Nat.zero_add, Expr.at?, getElem?_operands found]
  exact at_

/-- A moved call is the expression at its place. -/
theorem moves_at? (e : Expr) : ∀ h : Hoisting, ∀ m ∈ moves probeOf e h,
    e.at? m.place = some m.hoist.call := by
  induction e using walk_induction with
  | step e operands inner =>
    intro h m member
    cases timed : timed? probeOf e with
    | some found =>
      have call := innerCall?_of_timed? timed
      rw [moves_timed timed] at member
      rcases List.mem_append.mp member with operand | own
      · obtain ⟨m, moved, rfl⟩ := List.mem_map.mp operand
        rw [Move.below_place, at?_append, at?_callPlace call]
        exact operandMoves_at?_of (inner _ call) moved
      · split at own
        · rw [List.mem_singleton.mp own]
          rfl
        · cases own
    | none =>
      rw [moves_untimed timed] at member
      exact operandMoves_at?_of operands member

theorem operandMoves_at? (c : Expr) (h : Hoisting) : ∀ m ∈ operandMoves probeOf c h,
    c.at? m.place = some m.hoist.call :=
  fun _ => operandMoves_at?_of fun x _ => moves_at? x

/-! ## What stays has no effect of a moved call -/

/-- Each of several expressions is walked in some state, and the moves out of it are those of this
walk. -/
theorem visitEach_getElem? {es : List Expr} {n i : Nat} {h : Hoisting} {x' : Expr}
    (found : (visitEach probeOf es h).1[i]? = some x') :
    ∃ x before, es[i]? = some x ∧ x' = (visit probeOf x before).1 ∧
      ∀ m ∈ movesEach probeOf n es h, ∀ q, m.place <+: (n + i) :: q →
        ∃ m' ∈ moves probeOf x before, m'.place <+: q := by
  induction es generalizing n i h with
  | nil => simp [visitEach] at found
  | cons e rest ih =>
    have number : ∀ m ∈ movesEach probeOf (n + 1) rest (visit probeOf e h).2,
        ∀ q, ¬ m.place <+: n :: q := by
      intro m member q covers
      obtain ⟨j, -, p, -, place, -⟩ := movesEach_at?_of (fun x _ => moves_at? x) member
      rw [place, List.cons_prefix_cons] at covers
      omega
    cases i with
    | zero =>
      obtain rfl : (visit probeOf e h).1 = x' := by simpa [visitEach] using found
      refine ⟨e, h, rfl, rfl, fun m member q covers => ?_⟩
      rcases List.mem_append.mp member with here | later
      · obtain ⟨m, moved, rfl⟩ := List.mem_map.mp here
        exact ⟨m, moved, (List.cons_prefix_cons.mp covers).2⟩
      · exact absurd covers (number m later q)
    | succ i =>
      obtain ⟨x, before, at_, walked, covered⟩ :=
        ih (n := n + 1) (by simpa [visitEach] using found)
      refine ⟨x, before, at_, walked, fun m member q covers => ?_⟩
      rcases List.mem_append.mp member with here | later
      · obtain ⟨m, -, rfl⟩ := List.mem_map.mp here
        have := (List.cons_prefix_cons.mp covers).1
        omega
      · exact covered m later q (by rwa [Nat.add_assoc, Nat.add_comm 1])

/-- A rebuilt expression keeps effects of the expression, those that are in no moved call. -/
def KeepsUncovered (e e' : Expr) (ms : List Move) : Prop :=
  ∀ q ∈ e'.effects, q ∈ e.effects ∧ ∀ m ∈ ms, ¬ m.place <+: q

theorem keepsUncovered_operands {c : Expr}
    (each : ∀ x ∈ c.enteredParts, ∀ h : Hoisting,
      KeepsUncovered x (visit probeOf x h).1 (moves probeOf x h)) (h : Hoisting) :
    KeepsUncovered c (c.withEntered (visitEach probeOf c.enteredParts h).1)
      (operandMoves probeOf c h) := by
  have fits : (visitEach probeOf c.enteredParts h).1.length = c.enteredParts.length :=
    length_visitEach ..
  intro q member
  rcases Expr.mem_effects.mp member with ⟨i, x', q, found, inner, rfl⟩ | ⟨rfl, own⟩
  · rw [Expr.operands_eq, Expr.enteredParts_withEntered fits,
      Expr.furtherOperands_withEntered fits] at found
    by_cases entered : i < c.enteredParts.length
    · rw [List.getElem?_append_left (fits ▸ entered)] at found
      obtain ⟨x, before, at_, rfl, covered⟩ := visitEach_getElem? (n := 0) found
      obtain ⟨kept, uncovered⟩ := each x (List.mem_of_getElem? at_) before q inner
      refine ⟨Expr.mem_effects.mpr (.inl ⟨i, x, q, getElem?_operands at_, kept, rfl⟩), ?_⟩
      intro m moved covers
      obtain ⟨m', moved', covers'⟩ := covered m moved q (by rwa [Nat.zero_add])
      exact uncovered m' moved' covers'
    · rw [List.getElem?_append_right (by omega), fits] at found
      refine ⟨Expr.mem_effects.mpr (.inl ⟨i, x', q, ?_, inner, rfl⟩), ?_⟩
      · rw [c.operands_eq, List.getElem?_append_right (by omega), found]
      · intro m moved covers
        obtain ⟨j, x, p, at_, place, -⟩ := movesEach_at?_of (fun x _ => moves_at? x) moved
        rw [place, List.cons_prefix_cons] at covers
        have := (List.getElem?_eq_some_iff.mp at_).1
        omega
  · rw [Expr.isEffect_withEntered fits] at own
    refine ⟨Expr.mem_effects.mpr (.inr ⟨rfl, own⟩), fun m moved covers => ?_⟩
    obtain ⟨j, x, p, -, place, -⟩ := movesEach_at?_of (fun x _ => moves_at? x) moved
    rw [place] at covers
    cases List.prefix_nil.mp covers

theorem keepsUncovered_stopped (e : Expr) {h : Hoisting} (stopped : h.safe = false) :
    KeepsUncovered e (visit probeOf e h).1 (moves probeOf e h) := by
  rw [visit_stopped e stopped, moves_stopped e stopped]
  exact fun q member => ⟨member, by simp⟩

/-- What stays of an expression has only effects that are in no call moved out of it. -/
theorem keepsUncovered_visit (e : Expr) : ∀ h : Hoisting,
    KeepsUncovered e (visit probeOf e h).1 (moves probeOf e h) := by
  induction e using walk_induction with
  | step e operands inner =>
    intro h
    cases safe : h.safe with
    | false => exact keepsUncovered_stopped e safe
    | true =>
      cases timed : timed? probeOf e with
      | some found =>
        rw [visit_timed timed]
        simp only [safe, if_true]
        intro q member
        rw [Expr.effects_name] at member
        cases member
      | none =>
        rw [visit_untimed timed, moves_untimed timed]
        exact keepsUncovered_operands operands h

end Hoisting

end ProbeWeave.Weaving
