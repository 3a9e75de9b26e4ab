import ProbeWeave.Proofs.Evaluation.Certain
import ProbeWeave.Proofs.Hoisting.Overtaking

/-! # Which calls the walk moves

The walk moves a timed call exactly if it stands at a certain place and every obstacle before it is in
a call that was moved earlier. Obstacles are the calls, the `await`s and the `yield`s at certain places,
and the parts with effects that run under a condition or repeatedly.
-/

namespace ProbeWeave.Syntax

/-- The order of places is that of their first difference; what is below a place comes before it. -/
theorem Place.not_prefix_of_before {p q : Place} (before : p.Before q) : ¬ p <+: q := by
  induction p generalizing q with
  | nil => cases before
  | cons i p ih =>
    cases q with
    | nil => simp
    | cons j q =>
      rw [List.cons_prefix_cons]
      rintro ⟨rfl, covers⟩
      rcases before with less | ⟨-, before⟩
      · exact Nat.lt_irrefl i less
      · exact ih before covers

theorem Place.before_cons {i : Nat} {p q : Place} :
    Place.Before (i :: p) (i :: q) ↔ p.Before q := by
  simp [Place.Before]

end ProbeWeave.Syntax

namespace ProbeWeave.Weaving

open Syntax

/-- What keeps the walk from moving calls behind it: an effect that certainly comes, or a part with
effects that runs under a condition or repeatedly. -/
inductive Obstacle (e : Expr) : Place → Prop where
  | effect {q : Place} {x : Expr} : e.Certain q → e.at? q = some x →
      (isCallLike x || isYield x) = true → Obstacle e q
  | comprehension {q : Place} {x : Expr} : e.Certain q → e.at? q = some x →
      x.isComprehension = true → hasEffects x = true → Obstacle e q
  | operand {q : Place} {i : Nat} {x y : Expr} : e.Certain q → e.at? q = some y →
      y.isConditional = true → y.Doubtful i → y.operands[i]? = some x → hasEffects x = true →
      Obstacle e (q ++ [i])

/-- A call stands at a place, or an `await` of it does. An awaited call has the place of its `await`
only. -/
def StandsAt (e : Expr) (p : Place) (call : Call) : Prop :=
  (∃ x, e.at? p = some x ∧ x.unwrapCall? = some call) ∧
    ∀ q, p = q ++ [0] → e.at? q ≠ some (.await call.toExpr)

/-! ## Obstacles of an expression and of its operands -/

theorem obstacle_nil {e : Expr} : Obstacle e [] ↔
    (isCallLike e || isYield e) = true ∨ e.isComprehension = true ∧ hasEffects e = true := by
  constructor
  · intro obstacle
    generalize same : ([] : Place) = place at obstacle
    cases obstacle with
    | effect certain found active =>
      subst same
      cases found
      exact .inl active
    | comprehension certain found whole effects =>
      subst same
      cases found
      exact .inr ⟨whole, effects⟩
    | operand => simp at same
  · rintro (active | ⟨whole, effects⟩)
    · exact .effect trivial rfl active
    · exact .comprehension trivial rfl whole effects

theorem Obstacle.below {e x : Expr} {i : Nat} {q : Place} (entered : e.enteredParts[i]? = some x)
    (obstacle : Obstacle x q) : Obstacle e (i :: q) := by
  have found := (Expr.enteredParts_getElem?.mp entered).2
  have at_ : ∀ r, e.at? (i :: r) = x.at? r := fun r => by rw [Expr.at?, found]; rfl
  have certain : ∀ {r : Place}, x.Certain r → e.Certain (i :: r) := fun inner =>
    Expr.certain_cons.mpr ⟨x, entered, inner⟩
  cases obstacle with
  | effect sure here active => exact .effect (certain sure) ((at_ _).trans here) active
  | comprehension sure here whole effects =>
    exact .comprehension (certain sure) ((at_ _).trans here) whole effects
  | operand sure here conditional doubtful operand effects =>
    exact .operand (q := i :: _) (certain sure) ((at_ _).trans here) conditional doubtful operand
      effects

/-- An obstacle below an operand is one of the operand if the operand certainly runs, and otherwise
the operand itself. -/
theorem obstacle_cons {e : Expr} {i : Nat} {q : Place} : Obstacle e (i :: q) ↔
    (∃ x, e.enteredParts[i]? = some x ∧ Obstacle x q) ∨
      q = [] ∧ ∃ x, e.isConditional = true ∧ e.Doubtful i ∧ e.operands[i]? = some x ∧
        hasEffects x = true := by
  constructor
  · intro obstacle
    generalize same : i :: q = place at obstacle
    have inner : ∀ {r : Place} {y : Expr}, e.Certain (i :: r) → e.at? (i :: r) = some y →
        ∃ x, e.enteredParts[i]? = some x ∧ x.Certain r ∧ x.at? r = some y := by
      intro r y certain found
      obtain ⟨x, entered, certain⟩ := Expr.certain_cons.mp certain
      rw [Expr.at?, (Expr.enteredParts_getElem?.mp entered).2] at found
      exact ⟨x, entered, certain, found⟩
    cases obstacle with
    | effect certain found active =>
      subst same
      obtain ⟨x, entered, certain, found⟩ := inner certain found
      exact .inl ⟨x, entered, .effect certain found active⟩
    | comprehension certain found whole effects =>
      subst same
      obtain ⟨x, entered, certain, found⟩ := inner certain found
      exact .inl ⟨x, entered, .comprehension certain found whole effects⟩
    | @operand r j x y certain found conditional doubtful operand effects =>
      cases r with
      | nil =>
        cases found
        cases same
        exact .inr ⟨rfl, x, conditional, doubtful, operand, effects⟩
      | cons k r =>
        cases same
        obtain ⟨z, entered, certain, found⟩ := inner certain found
        exact .inl ⟨z, entered, .operand certain found conditional doubtful operand effects⟩
  · rintro (⟨x, entered, obstacle⟩ | ⟨rfl, x, conditional, doubtful, found, effects⟩)
    · exact obstacle.below entered
    · exact .operand (q := []) trivial rfl conditional doubtful found effects

/-- What is at a place is in a call that was moved. -/
def Covered (moved : List Place) (q : Place) : Prop :=
  ∃ d ∈ moved, d <+: q

/-- Every obstacle that comes before a place and is not below it is in a call that was moved earlier. -/
def Cleared (e : Expr) (moved : List Place) (p : Place) : Prop :=
  ∀ q, Obstacle e q → q.Before p → ¬ p <+: q → ∃ d ∈ moved, d.Before p ∧ d <+: q

namespace Hoisting

variable {probeOf : Call → Option String}

/-- Whether a timed call stands at a place, awaited or not. -/
def TimedAt (probeOf : Call → Option String) (e : Expr) (p : Place) : Prop :=
  ∃ call, StandsAt e p call ∧ (probeOf call).isSome = true

/-! ## Timed calls of an expression and of its operands -/

theorem timedAt_nil {e : Expr} : TimedAt probeOf e [] ↔ timed? probeOf e ≠ none := by
  unfold timed?
  constructor
  · rintro ⟨call, ⟨⟨x, found, unwraps⟩, -⟩, timed⟩
    cases found
    obtain ⟨probe, known⟩ := Option.isSome_iff_exists.mp timed
    simp [unwraps, known]
  · intro timed
    split at timed
    · rename_i call unwraps
      refine ⟨call, ⟨⟨e, rfl, unwraps⟩, by simp⟩, ?_⟩
      rw [Option.isSome_iff_ne_none]
      simpa using timed
    · exact absurd rfl timed

/-- A timed call below an operand is one of the operand, unless it is the operand and awaited. -/
theorem timedAt_cons {e x : Expr} {i : Nat} {p : Place} (found : e.operands[i]? = some x)
    (apart : p = [] → ∀ c, innerCall? e = some c → e ≠ c → timed? probeOf e = none) :
    TimedAt probeOf e (i :: p) ↔ TimedAt probeOf x p := by
  have at_ : ∀ r, e.at? (i :: r) = x.at? r := fun r => by rw [Expr.at?, found]; rfl
  constructor
  · rintro ⟨call, ⟨stands, notAwaited⟩, timed⟩
    rw [at_] at stands
    refine ⟨call, ⟨stands, fun q same => ?_⟩, timed⟩
    rw [← at_]
    exact notAwaited (i :: q) (by rw [same]; rfl)
  · rintro ⟨call, ⟨stands, notAwaited⟩, timed⟩
    refine ⟨call, ⟨by rwa [at_], ?_⟩, timed⟩
    rintro (_ | ⟨j, q⟩) same awaits
    · obtain ⟨rfl, rfl⟩ := List.cons.inj same
      cases awaits
      have inner : innerCall? (.await call.toExpr) = some call.toExpr := rfl
      have untimed := apart rfl _ inner (fun same => by cases same)
      obtain ⟨probe, known⟩ := Option.isSome_iff_exists.mp timed
      simp [timed?, Expr.unwrapCall?, Call.toExpr, Expr.asCall?, known] at untimed
    · obtain ⟨rfl, rfl⟩ := List.cons.inj same
      exact notAwaited q rfl ((at_ q).symm.trans awaits)

/-! ## The places of moved calls -/

/-- The places of the calls that the walk moves out of an expression. -/
def places (probeOf : Call → Option String) (e : Expr) (h : Hoisting) : List Place :=
  (moves probeOf e h).map Move.place

/-- The places of the calls that the walk moves out of several expressions, numbered from a given
number on. -/
def placesEach (probeOf : Call → Option String) (n : Nat) (es : List Expr) (h : Hoisting) :
    List Place :=
  (movesEach probeOf n es h).map Move.place

/-- The walk before the expression of a number. -/
def before (probeOf : Call → Option String) (es : List Expr) (i : Nat) (h : Hoisting) : Hoisting :=
  (visitEach probeOf (es.take i) h).2

theorem placesEach_cons (n : Nat) (e : Expr) (rest : List Expr) (h : Hoisting) :
    placesEach probeOf n (e :: rest) h =
      (places probeOf e h).map (n :: ·) ++ placesEach probeOf (n + 1) rest (visit probeOf e h).2 := by
  simp [placesEach, places, Function.comp_def]

/-- The calls moved out of several expressions are those moved out of each. -/
theorem mem_placesEach {n : Nat} {es : List Expr} {h : Hoisting} {p : Place} :
    p ∈ placesEach probeOf n es h ↔
      ∃ i x r, es[i]? = some x ∧ r ∈ places probeOf x (before probeOf es i h) ∧
        p = (n + i) :: r := by
  induction es generalizing n h with
  | nil => simp [placesEach]
  | cons e rest ih =>
    rw [placesEach_cons, List.mem_append, List.mem_map, ih]
    constructor
    · rintro (⟨r, moved, rfl⟩ | ⟨i, x, r, found, moved, rfl⟩)
      · exact ⟨0, e, r, rfl, moved, rfl⟩
      · exact ⟨i + 1, x, r, found, moved, by rw [Nat.add_assoc, Nat.add_comm 1]⟩
    · rintro ⟨i, x, r, found, moved, rfl⟩
      cases i with
      | zero =>
        cases found
        exact .inl ⟨r, moved, rfl⟩
      | succ i => exact .inr ⟨i, x, r, found, moved, by rw [Nat.add_assoc, Nat.add_comm 1]⟩

theorem cons_mem_placesEach {es : List Expr} {h : Hoisting} {i : Nat} {r : Place} :
    i :: r ∈ placesEach probeOf 0 es h ↔
      ∃ x, es[i]? = some x ∧ r ∈ places probeOf x (before probeOf es i h) := by
  rw [mem_placesEach]
  constructor
  · rintro ⟨j, x, r, found, moved, same⟩
    rw [Nat.zero_add] at same
    cases same
    exact ⟨x, found, moved⟩
  · rintro ⟨x, found, moved⟩
    exact ⟨i, x, r, found, moved, by rw [Nat.zero_add]⟩

theorem places_timed {e c : Expr} {probe : String} (timed : timed? probeOf e = some (c, probe))
    {h : Hoisting} (safe : h.safe = true) :
    places probeOf e h = (placesEach probeOf 0 c.enteredParts h).map (callPlace e ++ ·) ++ [[]] := by
  simp [places, placesEach, moves_timed timed, safe, operandMoves, Function.comp_def]

theorem places_untimed {e : Expr} (untimed : timed? probeOf e = none) (h : Hoisting) :
    places probeOf e h = placesEach probeOf 0 e.enteredParts h := by
  rw [places, moves_untimed untimed]
  rfl

theorem places_stopped (e : Expr) {h : Hoisting} (stopped : h.safe = false) :
    places probeOf e h = [] := by
  rw [places, moves_stopped e stopped]
  rfl

theorem visitEach_append (es rest : List Expr) (h : Hoisting) :
    (visitEach probeOf (es ++ rest) h).2 =
      (visitEach probeOf rest (visitEach probeOf es h).2).2 := by
  induction es generalizing h with
  | nil => rfl
  | cons e es ih => exact ih _

theorem before_succ {es : List Expr} {i : Nat} {x : Expr} (found : es[i]? = some x)
    (h : Hoisting) :
    before probeOf es (i + 1) h = (visit probeOf x (before probeOf es i h)).2 := by
  rw [before, List.take_add_one, found, visitEach_append]
  rfl

/-! ## Calls are moved in the order in which they run -/

theorem pairwise_placesEach {es : List Expr}
    (each : ∀ x ∈ es, ∀ h : Hoisting, (places probeOf x h).Pairwise Place.Before) (n : Nat)
    (h : Hoisting) : (placesEach probeOf n es h).Pairwise Place.Before := by
  induction es generalizing n h with
  | nil => exact .nil
  | cons e rest ih =>
    rw [placesEach_cons]
    refine List.pairwise_append.mpr ⟨?_, ih (fun x member => each x (.tail _ member)) _ _, ?_⟩
    · exact (each e List.mem_cons_self h).map _ fun p q => Place.before_cons.mpr
    · intro p first q later
      obtain ⟨p, -, rfl⟩ := List.mem_map.mp first
      obtain ⟨i, -, r, -, -, rfl⟩ := mem_placesEach.mp later
      exact .inl (by omega)

theorem pairwise_places (e : Expr) : ∀ h : Hoisting, (places probeOf e h).Pairwise Place.Before := by
  induction e using walk_induction with
  | step e operands inner =>
    intro h
    cases safe : h.safe with
    | false =>
      rw [places_stopped e safe]
      exact .nil
    | true =>
      cases timed : timed? probeOf e with
      | none =>
        rw [places_untimed timed]
        exact pairwise_placesEach operands 0 h
      | some found =>
        obtain ⟨c, probe⟩ := found
        rw [places_timed timed safe]
        refine List.pairwise_append.mpr ⟨?_, List.pairwise_singleton _ _, ?_⟩
        · have calls := inner c (innerCall?_of_timed? timed)
          refine (pairwise_placesEach calls 0 h).map _ fun p q ordered => ?_
          cases e <;> simpa [callPlace, Place.before_cons] using ordered
        · intro p operand q own
          obtain ⟨p, moved, rfl⟩ := List.mem_map.mp operand
          obtain ⟨i, x, r, -, -, rfl⟩ := mem_placesEach.mp moved
          rw [List.mem_singleton.mp own]
          cases e <;> exact trivial

/-! ## The walk stays safe while it moves every obstacle -/

theorem covered_placesEach {es : List Expr} {h : Hoisting} {j : Nat} {q : Place} :
    Covered (placesEach probeOf 0 es h) (j :: q) ↔
      ∃ y, es[j]? = some y ∧ Covered (places probeOf y (before probeOf es j h)) q := by
  constructor
  · rintro ⟨d, moved, covers⟩
    obtain ⟨i, x, r, found, inner, rfl⟩ := mem_placesEach.mp moved
    rw [Nat.zero_add, List.cons_prefix_cons] at covers
    obtain ⟨rfl, covers⟩ := covers
    exact ⟨x, found, r, inner, covers⟩
  · rintro ⟨y, found, r, moved, covers⟩
    exact ⟨j :: r, cons_mem_placesEach.mpr ⟨y, found, moved⟩, List.cons_prefix_cons.mpr ⟨rfl, covers⟩⟩

/-- Whether the walk over an expression stays safe exactly if it moves every obstacle. -/
def StaysSafe (probeOf : Call → Option String) (e : Expr) : Prop :=
  ∀ h : Hoisting, h.safe = true →
    ((visit probeOf e h).2.safe = true ↔ ∀ q, Obstacle e q → Covered (places probeOf e h) q)

theorem safe_before_iff {es : List Expr} (each : ∀ x ∈ es, StaysSafe probeOf x) {h : Hoisting}
    (safe : h.safe = true) (i : Nat) :
    (before probeOf es i h).safe = true ↔ ∀ j y q, j < i → es[j]? = some y → Obstacle y q →
      Covered (places probeOf y (before probeOf es j h)) q := by
  induction i with
  | zero => simpa [before, visitEach] using safe
  | succ i ih =>
    cases found : es[i]? with
    | none =>
      have same : before probeOf es (i + 1) h = before probeOf es i h := by
        simp [before, List.take_add_one, found]
      rw [same, ih]
      refine ⟨fun all j y q less at_ => all j y q ?_ at_, fun all j y q less => all j y q (by omega)⟩
      rcases Nat.lt_succ_iff_lt_or_eq.mp less with less | rfl
      · exact less
      · rw [found] at at_
        cases at_
    | some x =>
      have one := each x (List.mem_of_getElem? found) (before probeOf es i h)
      rw [before_succ found]
      constructor
      · intro later j y q less at_ obstacle
        have here := safe_of_visit later
        rcases Nat.lt_succ_iff_lt_or_eq.mp less with less | rfl
        · exact ih.mp here j y q less at_ obstacle
        · rw [found] at at_
          cases at_
          exact (one here).mp later q obstacle
      · intro all
        have here := ih.mpr fun j y q less => all j y q (by omega)
        exact (one here).mpr fun q => all i x q (Nat.lt_succ_self i) found

theorem before_length (es : List Expr) (h : Hoisting) :
    before probeOf es es.length h = (visitEach probeOf es h).2 := by
  rw [before, List.take_length]

/-- Behind the operands of an expression that is not moved itself, the walk is safe if it moved every
obstacle in them and the expression adds none. -/
theorem safe_untimed {e : Expr} (untimed : timed? probeOf e = none) {h : Hoisting} :
    (visit probeOf e h).2.safe = true ↔ (visitEach probeOf e.enteredParts h).2.safe = true ∧
      ¬ e.skippedParts.any hasEffects = true ∧ ¬ (isCallLike e || isYield e) = true := by
  rw [visit_untimed untimed]
  dsimp only
  split
  · simp_all [unsafely]
  · rw [skip]
    split <;> simp_all [unsafely]

theorem staysSafe_untimed {e : Expr} (untimed : timed? probeOf e = none)
    (operands : ∀ x ∈ e.enteredParts, StaysSafe probeOf x) : StaysSafe probeOf e := by
  intro h safe
  rw [safe_untimed untimed, places_untimed untimed, ← before_length, safe_before_iff operands safe,
    Expr.any_skippedParts]
  constructor
  · rintro ⟨inner, nothingSkipped, passive⟩ (_ | ⟨i, q⟩) obstacle
    · rcases obstacle_nil.mp obstacle with active | whole
      · exact absurd active passive
      · exact absurd (.inl whole) nothingSkipped
    · rcases obstacle_cons.mp obstacle with ⟨x, entered, obstacle⟩ | ⟨-, x, part⟩
      · exact covered_placesEach.mpr ⟨x, entered, inner i x q
          (List.getElem?_eq_some_iff.mp entered).1 entered obstacle⟩
      · exact absurd (.inr ⟨i, x, part⟩) nothingSkipped
  · intro all
    have nothing : ¬ Covered (placesEach probeOf 0 e.enteredParts h) [] := by
      rintro ⟨d, moved, covers⟩
      obtain ⟨i, x, r, -, -, rfl⟩ := mem_placesEach.mp moved
      cases List.prefix_nil.mp covers
    refine ⟨fun j y q _ entered obstacle => ?_, ?_, fun active => ?_⟩
    · obtain ⟨y', entered', covered⟩ :=
        covered_placesEach.mp (all _ (Obstacle.below entered obstacle))
      rw [entered] at entered'
      cases entered'
      exact covered
    · rintro (whole | ⟨i, x, conditional, doubtful, found, effects⟩)
      · exact nothing (all [] (obstacle_nil.mpr (.inr whole)))
      · obtain ⟨y, entered, -⟩ := covered_placesEach.mp
          (all [i] (obstacle_cons.mpr (.inr ⟨rfl, x, conditional, doubtful, found, effects⟩)))
        exact (Expr.enteredParts_getElem?.mp entered).1 doubtful
    · exact nothing (all [] (obstacle_nil.mpr (.inl active)))

theorem safe_visit_timed {e c : Expr} {probe : String} (timed : timed? probeOf e = some (c, probe))
    {h : Hoisting} (safe : h.safe = true) : (visit probeOf e h).2.safe = true := by
  rw [visit_timed timed]
  simp [safe, record]

/-- The walk over an expression stays safe exactly if it moves every obstacle. -/
theorem staysSafe_visit (e : Expr) : StaysSafe probeOf e := by
  induction e using walk_induction with
  | step e operands inner =>
    cases timed : timed? probeOf e with
    | none => exact staysSafe_untimed timed operands
    | some found =>
      intro h safe
      refine iff_of_true (safe_visit_timed timed safe) fun q _ => ?_
      rw [places_timed timed safe]
      exact ⟨[], by simp, List.nil_prefix⟩

/-! ## A call is moved exactly if nothing stands in its way -/

theorem not_before_nil {q : Place} : ¬ Place.Before [] q :=
  fun before => by cases before

/-- That an expression itself was moved clears no place in it. -/
theorem cleared_append_nil {e : Expr} {moved : List Place} {p : Place} :
    Cleared e (moved ++ [[]]) p ↔ Cleared e moved p := by
  refine forall_congr' fun q => imp_congr_right fun _ => imp_congr_right fun _ =>
    imp_congr_right fun _ => ?_
  constructor
  · rintro ⟨d, member, before, covers⟩
    rcases List.mem_append.mp member with moved | own
    · exact ⟨d, moved, before, covers⟩
    · rw [List.mem_singleton.mp own] at before
      exact absurd before not_before_nil
  · rintro ⟨d, member, before, covers⟩
    exact ⟨d, List.mem_append_left _ member, before, covers⟩

theorem cleared_await {c : Expr} {moved : List Place} {p : Place} :
    Cleared (.await c) (moved.map (0 :: ·)) (0 :: p) ↔ Cleared c moved p := by
  constructor
  · intro cleared q obstacle before apart
    obtain ⟨_, member, earlier, covers⟩ := cleared (0 :: q) (.below rfl obstacle)
      (Place.before_cons.mpr before) (fun covers => apart (List.cons_prefix_cons.mp covers).2)
    obtain ⟨d, inner, rfl⟩ := List.mem_map.mp member
    exact ⟨d, inner, Place.before_cons.mp earlier, (List.cons_prefix_cons.mp covers).2⟩
  · rintro cleared (_ | ⟨i, q⟩) obstacle before apart
    · exact absurd before not_before_nil
    · rcases obstacle_cons.mp obstacle with ⟨x, entered, inner⟩ | ⟨-, x, conditional, -⟩
      · obtain ⟨rfl, rfl⟩ : i = 0 ∧ x = c := by
          cases i <;> simp_all [Expr.enteredParts]
        obtain ⟨d, member, earlier, covers⟩ := cleared q inner (Place.before_cons.mp before)
          fun covers => apart (List.cons_prefix_cons.mpr ⟨rfl, covers⟩)
        exact ⟨0 :: d, List.mem_map_of_mem member, Place.before_cons.mpr earlier,
          List.cons_prefix_cons.mpr ⟨rfl, covers⟩⟩
      · cases conditional

/-- Whether the walk over an expression moves a call exactly if it is timed, stands at a certain place
and nothing that stays is in its way. -/
def MovesExactly (probeOf : Call → Option String) (e : Expr) : Prop :=
  ∀ h : Hoisting, h.safe = true → ∀ p, p ∈ places probeOf e h ↔
    e.Certain p ∧ TimedAt probeOf e p ∧ Cleared e (places probeOf e h) p

/-- A place in an operand is cleared if the walk comes to the operand safely and the place is cleared
in the operand. -/
theorem cleared_cons {c x : Expr} {i : Nat} {r : Place} (entered : c.enteredParts[i]? = some x)
    {h : Hoisting} (safe : h.safe = true) :
    Cleared c (placesEach probeOf 0 c.enteredParts h) (i :: r) ↔
      (before probeOf c.enteredParts i h).safe = true ∧
        Cleared x (places probeOf x (before probeOf c.enteredParts i h)) r := by
  rw [safe_before_iff (fun x _ => staysSafe_visit x) safe]
  constructor
  · intro cleared
    constructor
    · intro j y q less found obstacle
      obtain ⟨d, moved, -, covers⟩ := cleared (j :: q) (.below found obstacle) (.inl less)
        (fun covers => by have := (List.cons_prefix_cons.mp covers).1; omega)
      obtain ⟨y', found', covered⟩ := covered_placesEach.mp ⟨d, moved, covers⟩
      rw [found] at found'
      cases found'
      exact covered
    · intro q obstacle before apart
      obtain ⟨d, moved, earlier, covers⟩ := cleared (i :: q) (.below entered obstacle)
        (Place.before_cons.mpr before) (fun covers => apart (List.cons_prefix_cons.mp covers).2)
      cases d with
      | nil => exact absurd earlier not_before_nil
      | cons j d =>
        obtain ⟨rfl, inner⟩ := List.cons_prefix_cons.mp covers
        obtain ⟨x', entered', here⟩ := cons_mem_placesEach.mp moved
        rw [entered] at entered'
        cases entered'
        exact ⟨d, here, Place.before_cons.mp earlier, inner⟩
  · rintro ⟨earlier, cleared⟩ (_ | ⟨j, q⟩) obstacle before apart
    · exact absurd before not_before_nil
    · have sure := (Expr.not_doubtful_iff (Expr.enteredParts_getElem?.mp entered).2).mp
        (Expr.enteredParts_getElem?.mp entered).1
      have le : j ≤ i := by rcases before with less | ⟨rfl, -⟩ <;> omega
      rcases obstacle_cons.mp obstacle with ⟨y, found, obstacle⟩ | ⟨-, y, -, doubtful, found, -⟩
      · rcases before with less | ⟨rfl, before⟩
        · obtain ⟨d, moved, covers⟩ := earlier j y q less found obstacle
          exact ⟨j :: d, cons_mem_placesEach.mpr ⟨y, found, moved⟩, .inl less,
            List.cons_prefix_cons.mpr ⟨rfl, covers⟩⟩
        · rw [entered] at found
          cases found
          obtain ⟨d, moved, before, covers⟩ := cleared q obstacle before
            fun covers => apart (List.cons_prefix_cons.mpr ⟨rfl, covers⟩)
          exact ⟨j :: d, cons_mem_placesEach.mpr ⟨x, entered, moved⟩, Place.before_cons.mpr before,
            List.cons_prefix_cons.mpr ⟨rfl, covers⟩⟩
      · exact absurd doubtful ((Expr.not_doubtful_iff found).mpr (by omega))

/-- A call is moved out of the operands of an expression exactly if nothing is in its way. -/
theorem mem_placesEach_iff {c : Expr} (each : ∀ x ∈ c.enteredParts, MovesExactly probeOf x)
    {h : Hoisting} (safe : h.safe = true) {i : Nat} {r : Place} :
    i :: r ∈ placesEach probeOf 0 c.enteredParts h ↔ c.Certain (i :: r) ∧
      (∃ x, c.enteredParts[i]? = some x ∧ TimedAt probeOf x r) ∧
        Cleared c (placesEach probeOf 0 c.enteredParts h) (i :: r) := by
  rw [cons_mem_placesEach, Expr.certain_cons]
  constructor
  · rintro ⟨x, entered, moved⟩
    have earlier : (before probeOf c.enteredParts i h).safe = true := by
      by_contra stopped
      rw [places_stopped x (Bool.eq_false_iff.mpr stopped)] at moved
      cases moved
    obtain ⟨certain, timed, cleared⟩ := (each x (List.mem_of_getElem? entered) _ earlier r).mp moved
    exact ⟨⟨x, entered, certain⟩, ⟨x, entered, timed⟩, (cleared_cons entered safe).mpr ⟨earlier, cleared⟩⟩
  · rintro ⟨⟨x, entered, certain⟩, ⟨x', entered', timed⟩, cleared⟩
    rw [entered] at entered'
    cases entered'
    obtain ⟨earlier, cleared⟩ := (cleared_cons entered safe).mp cleared
    exact ⟨x, entered, (each x (List.mem_of_getElem? entered) _ earlier r).mpr ⟨certain, timed, cleared⟩⟩

theorem nil_mem_placesEach {es : List Expr} {h : Hoisting} : [] ∉ placesEach probeOf 0 es h := by
  intro moved
  obtain ⟨i, x, r, -, -, same⟩ := mem_placesEach.mp moved
  cases same

theorem movesExactly_untimed {e : Expr} (untimed : timed? probeOf e = none)
    (operands : ∀ x ∈ e.enteredParts, MovesExactly probeOf x) : MovesExactly probeOf e := by
  rintro h safe (_ | ⟨i, r⟩) <;> rw [places_untimed untimed]
  · refine iff_of_false nil_mem_placesEach fun ⟨_, timed, _⟩ => timedAt_nil.mp timed untimed
  · rw [mem_placesEach_iff operands safe]
    refine and_congr_right fun certain => and_congr_left fun _ => ?_
    obtain ⟨x, entered, -⟩ := Expr.certain_cons.mp certain
    rw [timedAt_cons (Expr.enteredParts_getElem?.mp entered).2 fun _ _ _ _ => untimed, entered]
    simp

/-- A timed call below an operand of a call is one of the operand. -/
theorem timedAt_call {start : Position} {callee : Expr} {arguments : List Expr}
    {keywords : List Keyword} {i : Nat} {r : Place}
    (certain : Expr.Certain (.call start callee arguments keywords) (i :: r)) :
    TimedAt probeOf (.call start callee arguments keywords) (i :: r) ↔
      ∃ x, (Expr.call start callee arguments keywords).enteredParts[i]? = some x ∧
        TimedAt probeOf x r := by
  obtain ⟨x, entered, -⟩ := Expr.certain_cons.mp certain
  rw [timedAt_cons (Expr.enteredParts_getElem?.mp entered).2, entered]
  · simp
  · rintro - c same apart
    cases same
    exact absurd rfl apart

/-- What is moved out of the operands of an awaited call is below the `await`, and not the call. -/
theorem mem_placesEach_await {start : Position} {callee : Expr} {arguments : List Expr}
    {keywords : List Keyword}
    (operands : ∀ x ∈ (Expr.call start callee arguments keywords).enteredParts,
      MovesExactly probeOf x) {h : Hoisting} (safe : h.safe = true) {p : Place} (inside : p ≠ []) :
    let c := Expr.call start callee arguments keywords
    let moved := (placesEach probeOf 0 c.enteredParts h).map (0 :: ·)
    p ∈ moved ↔ (Expr.await c).Certain p ∧ TimedAt probeOf (.await c) p ∧ Cleared (.await c) moved p := by
  constructor
  · intro moved
    obtain ⟨d, operand, rfl⟩ := List.mem_map.mp moved
    cases d with
    | nil => exact absurd operand nil_mem_placesEach
    | cons j d =>
      obtain ⟨certain, timed, cleared⟩ := (mem_placesEach_iff operands safe).mp operand
      refine ⟨Expr.certain_cons.mpr ⟨_, rfl, certain⟩, ?_, cleared_await.mpr cleared⟩
      exact (timedAt_cons rfl (by simp)).mpr ((timedAt_call certain).mpr timed)
  · rintro ⟨certain, timed, cleared⟩
    cases p with
    | nil => exact absurd rfl inside
    | cons i r =>
      obtain ⟨x, entered, certain⟩ := Expr.certain_cons.mp certain
      obtain ⟨rfl, rfl⟩ : i = 0 ∧ x = .call start callee arguments keywords := by
        cases i <;> simp_all [Expr.enteredParts]
      cases r with
      | nil =>
        obtain ⟨call, ⟨⟨y, found, unwraps⟩, notAwaited⟩, -⟩ := timed
        cases found
        cases unwraps
        exact absurd rfl (notAwaited [] rfl)
      | cons j d =>
        refine List.mem_map_of_mem
          ((mem_placesEach_iff operands safe).mpr ⟨certain, ?_, cleared_await.mp cleared⟩)
        exact (timedAt_call certain).mp ((timedAt_cons rfl (by simp)).mp timed)

theorem movesExactly_timed {e c : Expr} {probe : String}
    (timed : timed? probeOf e = some (c, probe))
    (operands : ∀ x ∈ c.enteredParts, MovesExactly probeOf x) : MovesExactly probeOf e := by
  intro h safe p
  have call := innerCall?_of_timed? timed
  obtain ⟨start, callee, arguments, keywords, rfl⟩ := innerCall?_isCall call
  rw [places_timed timed safe, cleared_append_nil, List.mem_append, List.mem_singleton]
  cases p with
  | nil =>
    refine iff_of_true (.inr rfl) ⟨trivial, timedAt_nil.mpr (by simp [timed]), ?_⟩
    exact fun q _ _ apart => absurd List.nil_prefix apart
  | cons i r =>
    rcases innerCall?_eq_some call with rfl | rfl
    · simp only [callPlace, List.nil_append, List.map_id', reduceCtorEq, or_false,
        mem_placesEach_iff operands safe]
      exact and_congr_right fun certain => and_congr_left fun _ => (timedAt_call certain).symm
    · simp only [callPlace, List.cons_append, List.nil_append, reduceCtorEq, or_false]
      exact mem_placesEach_await operands safe (List.cons_ne_nil i r)

/-- The walk over an expression moves a call exactly if nothing is in its way. -/
theorem movesExactly_visit (e : Expr) : MovesExactly probeOf e := by
  induction e using walk_induction with
  | step e operands inner =>
    cases timed : timed? probeOf e with
    | none => exact movesExactly_untimed timed operands
    | some found => exact movesExactly_timed timed (inner _ (innerCall?_of_timed? timed))

/-- The walk records timed calls in the order in which they run, each once and behind those in it;
they stand at certain places and so run exactly once in every run of the expression. A timed call at a
certain place is recorded exactly if every obstacle before it and outside it is in a call recorded
earlier. -/
theorem visit_records_exactly (probeOf : Call → Option String) (e : Expr) (supply : Supply) :
    let ms := moves probeOf e (.start supply)
    let moved := ms.map Move.place
    (visit probeOf e (.start supply)).2.hoists = ms.map Move.hoist ∧
      (∀ m ∈ ms, e.at? m.place = some m.hoist.call) ∧
      moved.Pairwise (fun p q => Place.Before p q ∧ ¬ p <+: q) ∧
      (∀ p ∈ moved, ∀ t, Performs e t → t.count p = 1) ∧
      ∀ p, p ∈ moved ↔ e.Certain p ∧ TimedAt probeOf e p ∧
        ∀ q, Obstacle e q → Place.Before q p → ¬ p <+: q →
          ∃ d ∈ moved, Place.Before d p ∧ d <+: q := by
  have exactly := @movesExactly_visit probeOf e (.start supply) rfl
  refine ⟨visit_hoists e _, moves_at? e _, ?_, fun p moved t run => ?_, exactly⟩
  · exact (pairwise_places e _).imp fun before => ⟨before, Place.not_prefix_of_before before⟩
  · obtain ⟨certain, ⟨call, ⟨⟨x, found, unwraps⟩, -⟩, -⟩, -⟩ := (exactly p).mp moved
    refine run.count_of_certain certain found ?_
    cases x <;> simp_all [Expr.unwrapCall?, Expr.asCall?, isEffect]

end Hoisting

end ProbeWeave.Weaving
