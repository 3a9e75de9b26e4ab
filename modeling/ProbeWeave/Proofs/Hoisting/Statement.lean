import Mathlib
import ProbeWeave.Proofs.Hoisting.Sequence
import ProbeWeave.Proofs.Syntax.Blocks
import ProbeWeave.Weaving.Mark

/-! # Moving calls ahead of a statement

The slot of a statement is the first of its expressions that can have an effect, so what holds of a
walk over the slot holds of the statement. Calls are moved ahead of a statement in order exactly when
none overtakes an effect that the walk does not notice, and then the temporaries and the rebuilt
statement perform what the statement performs.
-/

namespace ProbeWeave.Syntax

/-- The annotations of parameters in the order in which they run. -/
def Parameters.annotations (p : Parameters) : List Expr :=
  (p.regular ++ p.positionalOnly ++ p.rest.toList ++ p.keywordOnly ++ p.keywordRest.toList).filterMap
    Parameter.annotation?

namespace Stmt

/-- The expressions of a statement itself, those of its blocks and clauses left aside, in the order in
which they run. -/
def expressions : Stmt → List Expr
  | functionDef _ _ _ parameters _ decorators returns =>
    decorators.map Decorator.expression ++ parameters.defaults ++ parameters.annotations ++
      returns.toList
  | classDef _ _ bases keywords _ decorators =>
    decorators.map Decorator.expression ++ bases ++ keywords.map Keyword.value
  | returned _ value => value.toList
  | delete _ targets => targets
  | assign _ targets value => value :: targets
  | augmented _ target _ value => [target, value]
  | annotated _ target annotation value _ => value.toList ++ [target, annotation]
  | forLoop _ _ target source _ _ => [source, target]
  | whileLoop _ test _ _ | branch _ test _ _ => [test]
  | withBlock _ _ items _ => items.flatMap fun item => item.context :: item.target.toList
  | matchBlock _ subject _ => [subject]
  | raise _ exception cause => exception.toList ++ cause.toList
  | assert _ test message => test :: message.toList
  | expression _ value => [value]
  | tryBlock .. | imports .. | importsFrom .. | globals .. | nonlocals .. | pass .. | breakLoop ..
  | continueLoop .. => []

/-- The number of the slot among the expressions of a statement. -/
def slotNumber : Stmt → Nat
  | augmented .. => 1
  | _ => 0

theorem slotNumber_withSlot (s : Stmt) (e : Expr) : (s.withSlot e).slotNumber = s.slotNumber := by
  fun_cases withSlot s e <;> rfl

/-- The expressions that run once and first: the slot and what is before it. -/
def lead (s : Stmt) : List Expr :=
  match s.slot? with
  | some _ => s.expressions.take (s.slotNumber + 1)
  | none => []

/-- The expression at a place in a statement. -/
def at? (s : Stmt) : Place → Option Expr
  | [] => none
  | i :: p => s.expressions[i]?.bind fun x => x.at? p

/-- The places of the effects of a statement in the order in which they come when everything runs. -/
def effects (s : Stmt) : List Place :=
  numbered 0 (s.expressions.map Expr.effects)

/-- The sequences of effects that a run of a statement can perform, when those performed behind its
slot are given. -/
def Performs (later : List Place → Prop) (s : Stmt) (t : List Place) : Prop :=
  ∃ first behind, PerformsAll 0 s.lead first ∧ later behind ∧ t = first ++ behind

/-- What comes before the slot is a name, and another expression in the slot changes nothing else. -/
theorem expressions_of_slot {s : Stmt} {e : Expr} (slot : s.slot? = some e) :
    ∃ before after, before.length = s.slotNumber ∧ (∀ x ∈ before, ∃ id use, x = .name id use) ∧
      ∀ e', (s.withSlot e').expressions = before ++ e' :: after := by
  cases s with
  | expression | assign | branch | forLoop | matchBlock =>
    cases slot
    exact ⟨[], _, rfl, by simp, fun e' => rfl⟩
  | returned lines value | annotated lines target note value simple | raise lines value cause =>
    cases slot
    exact ⟨[], _, rfl, by simp, fun e' => rfl⟩
  | augmented lines target op value =>
    cases target with
    | name id use =>
      cases slot
      exact ⟨[.name id use], [], rfl, by simp, fun e' => rfl⟩
    | _ => cases slot
  | withBlock lines isAsync items body =>
    cases items with
    | nil => cases slot
    | cons item items =>
      cases slot
      exact ⟨[], item.target.toList ++ items.flatMap fun item => item.context :: item.target.toList,
        rfl, by simp, fun e' => by simp [withSlot, expressions]⟩
  | _ => cases slot

end Stmt

end ProbeWeave.Syntax

namespace ProbeWeave.Weaving

open Syntax

open Hoisting

/-- The moves out of the slot of a statement; out of the operands only if the slot is a site. -/
def slotMoves (probeOf : Call → Option String) (isSite : Bool) (s : Stmt) (supply : Supply) :
    List Move :=
  match s.slot? with
  | some e =>
    (if isSite then callMoves probeOf e (.start supply) else moves probeOf e (.start supply)).map
      (·.below [s.slotNumber])
  | none => []

/-- An effect of a statement that the walk passes without noticing it. -/
def SilentIn (s : Stmt) (q : Place) : Prop :=
  q ∈ s.effects ∧ ∃ i e p, q = i :: p ∧ s.expressions[i]? = some e ∧ Silent e p

section Slot

variable {probeOf : Call → Option String}

/-- What holds of a walk over an expression holds of a walk over the operands of a call. -/
theorem walkSlot (isSite : Bool) (e : Expr) (supply : Supply) :
    let walked := if isSite then visitOperands probeOf e (.start supply)
      else visit probeOf e (.start supply)
    let ms := if isSite then callMoves probeOf e (.start supply) else moves probeOf e (.start supply)
    walked.2.hoists = ms.map Move.hoist ∧ (∀ m ∈ ms, e.at? m.place = some m.hoist.call) ∧
      InOrder (Loud e) [] (ms.map Move.place) ∧
      (InOrder (· ∈ e.effects) [] (ms.map Move.place) → ∀ t, Performs e t ↔
        ∃ ahead stays, PerformsMoves ms ahead ∧ Performs walked.1 stays ∧ t = ahead ++ stays) := by
  cases isSite with
  | false =>
    exact ⟨visit_hoists e (.start supply), moves_at? e _, inOrder_moves e _,
      splits_visit e (.start supply)⟩
  | true =>
    simp only [if_true, callMoves, visitOperands_eq]
    cases call : innerCall? e with
    | none => simp [PerformsMoves, InOrder, start]
    | some c =>
      refine ⟨by simp [visitEach_hoists 0, operandMoves, start], fun m member => ?_,
        inOrder_callPlace call (inOrder_operands (fun x _ => inOrder_moves x) _),
        fun ordered => splits_refillCall call (fun x _ => splits_visit x) ordered⟩
      obtain ⟨m, moved, rfl⟩ := List.mem_map.mp member
      rw [Move.below_place, at?_append, at?_callPlace call]
      exact operandMoves_at? c _ m moved

/-- Names before an expression perform nothing. -/
theorem performsAll_names {before : List Expr} (names : ∀ x ∈ before, ∃ id use, x = .name id use)
    {e : Expr} {n : Nat} {t : List Place} :
    PerformsAll n (before ++ [e]) t ↔ ∃ u, Performs e u ∧ t = u.map ((n + before.length) :: ·) := by
  induction before generalizing n t with
  | nil => simp [PerformsAll]
  | cons x before ih =>
    obtain ⟨id, use, rfl⟩ := names x List.mem_cons_self
    simp [PerformsAll, performs_name, ih (fun x member => names x (.tail _ member)), Nat.add_assoc,
      Nat.add_comm 1]

theorem lead_of_slot {s : Stmt} {e : Expr} {before after : List Expr} (slot : s.slot? = some e)
    (split : s.expressions = before ++ e :: after) (number : before.length = s.slotNumber) :
    s.lead = before ++ [e] := by
  rw [Stmt.lead, slot, split, ← number]
  simp [List.take_append, List.take_of_length_le]

/-- A run of a statement with a slot is a run of the slot and then of the rest. -/
theorem performs_of_slot {s : Stmt} {e : Expr} (slot : s.slot? = some e) (e' : Expr)
    {later : List Place → Prop} {t : List Place} :
    (s.withSlot e').Performs later t ↔
      ∃ u behind, Performs e' u ∧ later behind ∧ t = u.map (s.slotNumber :: ·) ++ behind := by
  obtain ⟨before, after, number, names, split⟩ := Stmt.expressions_of_slot slot
  have slot' := Stmt.slot_withSlot slot e'
  have number' := Stmt.slotNumber_withSlot s e'
  rw [Stmt.Performs, lead_of_slot slot' (split e') (number.trans number'.symm)]
  simp only [performsAll_names names, Nat.zero_add, number]
  constructor
  · rintro ⟨_, behind, ⟨u, runs, rfl⟩, rest, rfl⟩
    exact ⟨u, behind, runs, rest, rfl⟩
  · rintro ⟨u, behind, runs, rest, rfl⟩
    exact ⟨_, behind, ⟨u, runs, rfl⟩, rest, rfl⟩

/-- The effects of a statement up to its slot are those of the slot. -/
theorem effects_of_slot {s : Stmt} {e : Expr} (slot : s.slot? = some e) :
    s.expressions[s.slotNumber]? = some e ∧ ∀ i q, i ≤ s.slotNumber →
      (i :: q ∈ s.effects ↔ i = s.slotNumber ∧ q ∈ e.effects) := by
  obtain ⟨before, after, number, names, split⟩ := Stmt.expressions_of_slot slot
  have whole := split e
  rw [Stmt.withSlot_slot slot] at whole
  have at_ : s.expressions[s.slotNumber]? = some e := by
    rw [whole, ← number]
    simp
  refine ⟨at_, fun i q le => ?_⟩
  simp only [Stmt.effects, mem_numbered, Nat.zero_add, List.getElem?_map, Option.map_eq_some_iff]
  constructor
  · rintro ⟨j, _, r, ⟨x, found, rfl⟩, member, same⟩
    cases same
    rcases Nat.lt_or_eq_of_le le with less | rfl
    · rw [whole, List.getElem?_append_left (number ▸ less)] at found
      obtain ⟨id, use, rfl⟩ := names x (List.mem_of_getElem? found)
      rw [Expr.effects_name] at member
      cases member
    · rw [at_] at found
      cases found
      exact ⟨rfl, member⟩
  · rintro ⟨rfl, member⟩
    exact ⟨_, _, q, ⟨e, at_, rfl⟩, member, rfl⟩

/-- Moves out of the slot are in order for the statement when they are for the slot. -/
theorem inOrder_slot {s : Stmt} {e : Expr} (slot : s.slot? = some e) {effects : Place → Prop}
    {inSlot : Place → Prop} (present : ∀ q, effects q → q ∈ s.effects)
    (same : ∀ q, effects (s.slotNumber :: q) ↔ inSlot q) (ps : List Place) :
    InOrder effects [] (ps.map (s.slotNumber :: ·)) ↔ InOrder inSlot [] ps := by
  constructor
  · intro ordered
    exact ordered.operand_first.mono fun q => (same q).mpr
  · intro ordered
    refine (ordered.mono fun q => (same q).mp).below_first fun j q less member => ?_
    have := (((effects_of_slot slot).2 j q (by omega)).mp (present _ member)).1
    omega

/-- Calls move ahead of a statement in order exactly when none overtakes an effect that the walk does
not notice. What is recorded are the calls at the places they are moved from, and when they are moved
in order, binding the temporaries and then running the rebuilt statement performs the effects of the
statement, whatever it performs behind its slot. -/
theorem hoistSlot_inOrder_iff (isSite : Bool) (s : Stmt) (supply : Supply) :
    let walked := Timing.hoistSlot probeOf isSite s supply
    let ms := slotMoves probeOf isSite s supply
    walked.2.hoists = ms.map Move.hoist ∧ (∀ m ∈ ms, s.at? m.place = some m.hoist.call) ∧
      ((InOrder (· ∈ s.effects) [] (ms.map Move.place) ∧
          ∀ later t, s.Performs later t ↔ ∃ ahead stays, PerformsMoves ms ahead ∧
            (walked.1.elim s s.withSlot).Performs later stays ∧ t = ahead ++ stays) ↔
        InOrder (SilentIn s) [] (ms.map Move.place)) := by
  cases slot : s.slot? with
  | none => simp [Timing.hoistSlot, slotMoves, slot, start, InOrder, PerformsMoves]
  | some e =>
    obtain ⟨recorded, places, loud, splits⟩ := walkSlot isSite e supply
    obtain ⟨at_, effects⟩ := effects_of_slot slot
    simp only [Timing.hoistSlot, slotMoves, slot] at recorded places loud splits ⊢
    generalize (if isSite = true then callMoves probeOf e (.start supply)
      else moves probeOf e (.start supply)) = ms at recorded places loud splits ⊢
    generalize (if isSite = true then visitOperands probeOf e (.start supply)
      else visit probeOf e (.start supply)) = walked at recorded splits ⊢
    have shifted : (ms.map (·.below [s.slotNumber])).map Move.place =
        (ms.map Move.place).map (s.slotNumber :: ·) := by
      simp [Function.comp_def]
    have whole : InOrder (· ∈ s.effects) [] ((ms.map Move.place).map (s.slotNumber :: ·)) ↔
        InOrder (· ∈ e.effects) [] (ms.map Move.place) :=
      inOrder_slot slot (fun _ member => member)
        (fun q => by simp [effects s.slotNumber q (Nat.le_refl _)]) _
    have silent : InOrder (SilentIn s) [] ((ms.map Move.place).map (s.slotNumber :: ·)) ↔
        InOrder (fun q => q ∈ e.effects ∧ Silent e q) [] (ms.map Move.place) :=
      inOrder_slot slot (fun _ member => member.1)
        (fun q => by simp [SilentIn, effects s.slotNumber q (Nat.le_refl _), at_]) _
    rw [shifted, whole, silent]
    refine ⟨by simp [recorded], ?_, ?_, ?_⟩
    · intro m member
      obtain ⟨m, moved, rfl⟩ := List.mem_map.mp member
      rw [Move.below_place, List.singleton_append, Stmt.at?, at_]
      exact places m moved
    · exact fun ordered => ordered.1.mono fun q member => member.1
    · intro ordered
      have inOrder : InOrder (· ∈ e.effects) [] (ms.map Move.place) :=
        ordered.union (fun q present => by
          by_cases noticed : Silent e q
          · exact .inl ⟨present, noticed⟩
          · exact .inr ⟨present, noticed⟩) loud
      refine ⟨inOrder, fun later t => ?_⟩
      have original : (s.withSlot e).Performs later t ↔ _ := performs_of_slot slot e
      rw [Stmt.withSlot_slot slot] at original
      simp only [original, Option.elim_some, performs_of_slot slot walked.1, performsMoves_below,
        splits inOrder]
      constructor
      · rintro ⟨_, behind, ⟨a, b, runA, runB, rfl⟩, rest, rfl⟩
        exact ⟨_, _, ⟨a, runA, rfl⟩, ⟨b, behind, runB, rest, rfl⟩, by simp⟩
      · rintro ⟨_, _, ⟨a, runA, rfl⟩, ⟨b, behind, runB, rest, rfl⟩, rfl⟩
        exact ⟨_, behind, ⟨a, b, runA, runB, rfl⟩, rest, by simp⟩

end Slot

/-- `x = [(y := 1), f(y)]` -/
def bindThenCall : Stmt :=
  .assign .nowhere [.name "x" .store] (.list [.named (.name "y" .store) (.constant (.int 1)),
    .call .nowhere (.name "f" .load) [.name "y" .load] []])

/-- `x = [lambda v=g(): v, f()]` -/
def defaultThenCall : Stmt :=
  .assign .nowhere [.name "x" .store] (.list [
    .lambda (.mk [] [.mk "v" none (some (.call .nowhere (.name "g" .load) [] []))] none [] none)
      (.name "v" .load),
    .call .nowhere (.name "f" .load) [] []])

/-- Only calls of `f` are timed. -/
def onlyF (call : Call) : Option String :=
  match call.callee with
  | .name "f" _ => some "f"
  | _ => none

/-- A call is moved ahead of an assignment expression that binds what it reads, and a call ahead of
the call in a default value before it. -/
theorem silent_effects_overtaken :
    ¬ InOrder (· ∈ bindThenCall.effects) []
        ((slotMoves onlyF false bindThenCall (.fresh "t" [])).map Move.place) ∧
      ¬ InOrder (· ∈ defaultThenCall.effects) []
        ((slotMoves onlyF false defaultThenCall (.fresh "t" [])).map Move.place) := by
  have bound : (slotMoves onlyF false bindThenCall (.fresh "t" [])).map Move.place = [[0, 1]] := by
    cbv
  have default : (slotMoves onlyF false defaultThenCall (.fresh "t" [])).map Move.place =
      [[0, 1]] := by
    cbv
  have binds : bindThenCall.effects = [[0, 0], [0, 1]] := by cbv
  have calls : defaultThenCall.effects = [[0, 0, 0], [0, 1]] := by cbv
  rw [bound, default, binds, calls]
  constructor
  · rintro ⟨first, -⟩
    rcases first _ List.mem_cons_self (.inr ⟨rfl, .inl (by decide)⟩) with inside | ⟨d, member, -⟩
    · revert inside
      decide
    · cases member
  · rintro ⟨first, -⟩
    rcases first _ List.mem_cons_self (.inr ⟨rfl, .inl (by decide)⟩) with inside | ⟨d, member, -⟩
    · revert inside
      decide
    · cases member

end ProbeWeave.Weaving
