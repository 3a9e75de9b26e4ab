import ProbeWeave.Proofs.Hoisting.Inline
import ProbeWeave.Weaving.Mark

/-! # The walk over the slot of a statement

The walk over a slot is a walk over its expression or, if the slot is a site, over the operands of its
call. What holds of walks over expressions holds of both. Moving calls makes no statement look like
one that serves a probe: a chain of members that the walk changes starts from a temporary.
-/

namespace ProbeWeave.Weaving

open Syntax Supply

/-- Whether an expression starts or stops a probe, when the chains of names that lead to probes are
given. -/
def isProbeCall (references : List (List String)) : Expr → Bool
  | .call _ (.member target method) [] [] =>
    (method == "start" || method == "stop") && target.dottedParts?.any references.contains
  | _ => false

namespace Hoisting

variable {probeOf : Call → Option String}

theorem dottedParts?_withEntered {e : Expr} {parts : List Expr} (notName : ∀ id use, e ≠ .name id use)
    (notMember : ∀ value id, e ≠ .member value id) : (e.withEntered parts).dottedParts? = none := by
  fun_cases Expr.withEntered e parts with
  | case17 value id => exact absurd rfl (notMember value id)
  | case21 => cases e <;> simp_all [Expr.dottedParts?]
  | _ => rfl

/-- A chain of members that the walk changes starts from a temporary. -/
theorem dottedParts?_visit {e : Expr} : ∀ {h : Hoisting} {parts : List String},
    (visit probeOf e h).1.dottedParts? = some parts →
      (visit probeOf e h).1 = e ∨ ∃ t ∈ temporaries (moves probeOf e h), parts.head? = some t := by
  induction e using walk_induction with
  | step e operands inner =>
    intro h parts chain
    cases safe : h.safe with
    | false => exact .inl (by rw [visit_stopped e safe])
    | true =>
      cases timed : timed? probeOf e with
      | some found =>
        rw [visit_timed timed] at chain ⊢
        simp only [safe, if_true] at chain ⊢
        cases chain
        refine .inr ⟨_, ?_, rfl⟩
        rw [moves_timed timed, safe]
        simp [temporaries]
      | none =>
        rw [moves_untimed timed]
        rw [visit_untimed timed] at chain ⊢
        cases e with
        | name id use => exact .inl rfl
        | member value id =>
          simp only [Expr.enteredParts, visitEach, Expr.withEntered, Expr.dottedParts?,
            Option.map_eq_some_iff] at chain ⊢
          obtain ⟨start, first, rfl⟩ := chain
          rcases operands value List.mem_cons_self first with same | ⟨t, moved, head⟩
          · exact .inl (by rw [same])
          · refine .inr ⟨t, ?_, ?_⟩
            · simpa [operandMoves, Expr.enteredParts] using moved
            · cases start <;> simp_all
        | _ => rw [dottedParts?_withEntered (by simp) (by simp)] at chain; cases chain

theorem withEntered_eq_member {e value : Expr} {parts : List Expr} {id : String}
    (same : e.withEntered parts = .member value id) : ∃ inner, e = .member inner id := by
  fun_cases Expr.withEntered e parts <;> simp_all [Expr.withEntered]

theorem withEntered_eq_call {e callee : Expr} {parts arguments : List Expr} {start : Position}
    {keywords : List Keyword} (same : e.withEntered parts = .call start callee arguments keywords) :
    ∃ callee arguments keywords, e = .call start callee arguments keywords := by
  fun_cases Expr.withEntered e parts <;> simp_all [Expr.withEntered]

/-- Only a chain of members becomes one. -/
theorem visit_eq_member {e value : Expr} {id : String} {h : Hoisting}
    (same : (visit probeOf e h).1 = .member value id) :
    ∃ inner, e = .member inner id ∧ value = (visit probeOf inner h).1 ∧
      temporaries (moves probeOf e h) = temporaries (moves probeOf inner h) := by
  have untimed : ∀ inner, timed? probeOf (.member inner id) = none := fun _ => rfl
  have member : ∃ inner, e = .member inner id := by
    cases safe : h.safe with
    | false =>
      rw [visit_stopped e safe] at same
      exact ⟨value, same⟩
    | true =>
      cases timed : timed? probeOf e with
      | some found =>
        rw [visit_timed timed] at same
        simp [safe] at same
      | none =>
        rw [visit_untimed timed] at same
        exact withEntered_eq_member same
  obtain ⟨inner, rfl⟩ := member
  refine ⟨inner, rfl, ?_, ?_⟩
  · rw [visit_untimed (untimed inner)] at same
    simpa [Expr.enteredParts, visitEach, Expr.withEntered, eq_comm] using same
  · simp [moves_untimed (untimed inner), operandMoves, Expr.enteredParts]

/-- A call whose operands were walked serves a probe only if the call does. -/
theorem isProbeCall_of_operands {references : List (List String)} {c : Expr} {h : Hoisting}
    (apart : ∀ t ∈ temporaries (operandMoves probeOf c h), ∀ reference ∈ references,
      reference.head? ≠ some t)
    (serves : isProbeCall references (c.withEntered (visitEach probeOf c.enteredParts h).1) = true) :
    isProbeCall references c = true := by
  have shape : ∃ start callee arguments keywords,
      c.withEntered (visitEach probeOf c.enteredParts h).1 = .call start callee arguments keywords := by
    unfold isProbeCall at serves
    split at serves
    · exact ⟨_, _, _, _, by assumption⟩
    · cases serves
  obtain ⟨start, _, _, _, same⟩ := shape
  obtain ⟨callee, arguments, keywords, rfl⟩ := withEntered_eq_call same
  clear same
  match arguments, keywords with
  | _ :: _, _ => simp [Expr.enteredParts, visitEach, Expr.withEntered, isProbeCall] at serves
  | [], .mk _ _ :: _ =>
    simp [Expr.enteredParts, visitEach, Expr.withEntered, Keyword.value, refillKeywords,
      isProbeCall] at serves
  | [], [] =>
    simp only [Expr.enteredParts, List.map_nil, List.append_nil, visitEach, Expr.withEntered,
      List.take_nil, refillKeywords, operandMoves, movesEach_cons, movesEach_nil,
      temporaries_below] at serves apart
    cases visited : (visit probeOf callee h).1 with
    | member target method =>
      obtain ⟨inner, rfl, rfl, moved⟩ := visit_eq_member visited
      rw [visited] at serves
      rw [moved] at apart
      simp only [isProbeCall, Bool.and_eq_true, Option.any_eq_true, List.contains_iff_mem] at serves ⊢
      obtain ⟨method, parts, chain, known⟩ := serves
      rcases dottedParts?_visit chain with same | ⟨t, member, head⟩
      · exact ⟨method, parts, same ▸ chain, known⟩
      · exact absurd head (apart t member parts known)
    | _ => simp [visited, isProbeCall] at serves

theorem isProbeCall_visit {references : List (List String)} {e : Expr} {h : Hoisting}
    (apart : ∀ t ∈ temporaries (moves probeOf e h), ∀ reference ∈ references,
      reference.head? ≠ some t)
    (serves : isProbeCall references (visit probeOf e h).1 = true) :
    isProbeCall references e = true := by
  cases safe : h.safe with
  | false => rwa [visit_stopped e safe] at serves
  | true =>
    cases timed : timed? probeOf e with
    | some found =>
      rw [visit_timed timed] at serves
      simp [safe, isProbeCall] at serves
    | none =>
      rw [moves_untimed timed] at apart
      rw [visit_untimed timed] at serves
      exact isProbeCall_of_operands apart serves

theorem isProbeCall_refillCall {references : List (List String)} {e c : Expr} {h : Hoisting}
    (call : innerCall? e = some c)
    (apart : ∀ t ∈ temporaries (operandMoves probeOf c h), ∀ reference ∈ references,
      reference.head? ≠ some t)
    (serves : isProbeCall references
      (refillCall e c (visitEach probeOf c.enteredParts h).1) = true) :
    isProbeCall references e = true := by
  rcases innerCall?_eq_some call with rfl | rfl
  · obtain ⟨start, callee, arguments, keywords, rfl⟩ := innerCall?_isCall call
    exact isProbeCall_of_operands apart serves
  · cases serves

end Hoisting

open Hoisting

/-- What a walk that moved calls out of an expression gives: temporaries handed out one after the
other, each bound once and read once, and putting the calls back gives the expression. -/
structure Walked (e e' : Expr) (ms : List Move) (before after : Supply) : Prop where
  issued : Issued before (temporaries ms) after
  once : ∀ id, e.uses id = [] →
    Once id (temporaries ms) (ms.flatMap (bindingUses id)) (e'.uses id)
  restores : Restores e [] (hoistsOf ms)
  inlined : ∀ env, Leaves env e → Binds env (hoistsOf ms) → e'.inline env = e
  serves : ∀ references : List (List String),
    (∀ t ∈ temporaries ms, ∀ reference ∈ references, reference.head? ≠ some t) →
      isProbeCall references e' = true → isProbeCall references e = true

variable {probeOf : Call → Option String}

theorem walked_refl (e : Expr) (supply : Supply) : Walked e e [] supply supply where
  issued := .refl supply
  once := fun _ unused => ⟨by simp [temporaries], fun _ => ⟨rfl, unused⟩⟩
  restores := trivial
  inlined := fun _ leaves _ => Expr.inline_unused e leaves
  serves := fun _ _ serves => serves

theorem walked_visit (e : Expr) (h : Hoisting) :
    Walked e (visit probeOf e h).1 (moves probeOf e h) h.supply (visit probeOf e h).2.supply where
  issued := issued_visit e h
  once := fun _ unused => once_visit e unused h
  restores := (undoes_visit e h).1
  inlined := (undoes_visit e h).2
  serves := fun _ => isProbeCall_visit

theorem walked_visitOperands (e : Expr) (h : Hoisting) :
    Walked e (visitOperands probeOf e h).1 (callMoves probeOf e h) h.supply
      (visitOperands probeOf e h).2.supply := by
  rw [visitOperands_eq, callMoves]
  cases call : innerCall? e with
  | none => exact walked_refl e h.supply
  | some c =>
    obtain ⟨restores, stays⟩ := undoes_operands (c := c) (fun x _ => undoes_visit x) h
    refine ⟨?_, fun id unused => ?_, ?_, fun env leaves binds => ?_, fun references apart serves => ?_⟩
    · rw [temporaries_below]
      exact issued_each (fun x _ => issued_visit x) 0 h
    · rw [temporaries_below, bindingUses_below]
      exact (once_operands (fun x _ => once_visit x) (uses_of_innerCall call unused) h).perm
        (uses_refillCall call unused (length_visitEach ..))
    · rw [hoistsOf_below]
      exact restores.mono (fun env leaves => leaves.innerCall call) (by simp)
    · rw [hoistsOf_below] at binds
      exact inline_refillCall call (length_visitEach ..) (stays env (leaves.innerCall call) binds)
    · rw [temporaries_below] at apart
      exact isProbeCall_refillCall call apart serves

/-- The walk over the slot of a statement. -/
theorem hoistSlot_walked {s : Stmt} {e : Expr} (slot : s.slot? = some e) (isSite : Bool)
    (supply : Supply) :
    ∃ e' ms, (Timing.hoistSlot probeOf isSite s supply).1 = some e' ∧
      (Timing.hoistSlot probeOf isSite s supply).2.hoists = hoistsOf ms ∧
      Walked e e' ms supply (Timing.hoistSlot probeOf isSite s supply).2.supply := by
  simp only [Timing.hoistSlot, slot]
  cases isSite with
  | true =>
    refine ⟨_, _, rfl, ?_, walked_visitOperands e (.start supply)⟩
    simp only [if_true, visitOperands_eq, callMoves]
    cases innerCall? e with
    | none => rfl
    | some c =>
      rw [hoistsOf_below]
      exact visitEach_hoists 0 c.enteredParts (.start supply)
  | false => exact ⟨_, _, rfl, visit_hoists e (.start supply), walked_visit e (.start supply)⟩

end ProbeWeave.Weaving
