import ProbeWeave.Proofs.Hoisting.Temporaries

/-! # Putting moved calls back

`inline` puts expressions where their names are read among the operands that certainly run. Putting
the calls that a walk moved where their temporaries stand undoes the walk.
-/

namespace ProbeWeave.Syntax

/-- Names with the expressions they stand for. -/
abbrev Bindings := List (String × Expr)

namespace Expr

/-- Puts expressions where their names are read among the operands that certainly run. -/
def inline (env : Bindings) (e : Expr) : Expr :=
  match e with
  | name id .load => (env.lookup id).getD e
  | e => e.withEntered (e.enteredParts.attach.map fun ⟨x, _⟩ => inline env x)
termination_by sizeOf e
decreasing_by exact sizeOf_lt_of_mem_enteredParts ‹_›

theorem inline_name (env : Bindings) (id : String) :
    (name id .load).inline env = (env.lookup id).getD (name id .load) := by
  rw [inline]

theorem inline_eq (env : Bindings) {e : Expr} (notRead : ∀ id, e ≠ name id .load) :
    e.inline env = e.withEntered (e.enteredParts.map (inline env)) := by
  rw [inline]
  · rw [List.attach_map_val]
  · exact notRead

theorem refillItems_restore (items : List DictItem) (parts : List Expr) :
    refillItems (refillItems items parts) (items.flatMap DictItem.parts) = items := by
  induction items generalizing parts with
  | nil => rfl
  | cons item items ih =>
    cases item with
    | pair key value =>
      rcases parts with _ | ⟨_, _ | ⟨_, parts⟩⟩
      · exact refillItems_parts (.pair key value :: items)
      · exact refillItems_parts (.pair key value :: items)
      · simp [refillItems, DictItem.parts, ih]
    | unpacked mapping =>
      cases parts with
      | nil => exact refillItems_parts (.unpacked mapping :: items)
      | cons _ parts => simp [refillItems, DictItem.parts, ih]

theorem refillKeywords_restore (keywords : List Keyword) (parts : List Expr) :
    refillKeywords (refillKeywords keywords parts) (keywords.map Keyword.value) = keywords := by
  induction keywords generalizing parts with
  | nil => rfl
  | cons k keywords ih =>
    cases k
    match parts with
    | _ :: parts => simp [refillKeywords, Keyword.value, ih]
    | [] => exact refillKeywords_values (.mk _ _ :: keywords)

theorem refillOption_restore (e : Option Expr) (parts rest : List Expr) :
    refillOption (refillOption e parts).1 (e.toList ++ rest) = (e, rest) := by
  cases e with
  | none => rfl
  | some e => cases parts <;> rfl

/-- Putting the operands back where others were put gives the expression. -/
theorem withEntered_restore {e : Expr} {parts : List Expr}
    (fits : parts.length = e.enteredParts.length) :
    (e.withEntered parts).withEntered e.enteredParts = e := by
  have back := withEntered_enteredParts e
  fun_cases withEntered e parts with
  | case13 left ops comparators newLeft first =>
    have one : first.length = (comparators.take 1).length := by simpa [enteredParts] using fits
    cases comparators with
    | nil => simp_all [enteredParts, withEntered]
    | cons =>
      obtain ⟨only, rfl⟩ := List.length_eq_one_iff.mp (one.trans (by simp))
      rfl
  | case15 value conversion format newValue rest =>
    have restored := refillOption_restore format rest []
    rw [List.append_nil] at restored
    simp [withEntered, enteredParts, restored]
  | case20 lower upper step _ newLower rest lowerEq newUpper last upperEq =>
    obtain rfl : (refillOption lower parts).1 = newLower := by rw [lowerEq]
    obtain rfl : (refillOption upper rest).1 = newUpper := by rw [upperEq]
    have restored := refillOption_restore step last []
    rw [List.append_nil] at restored
    simp [enteredParts, withEntered, refillOption_restore, restored]
  | case21 => exact back
  | _ => simp_all [enteredParts, withEntered, refillItems_restore, refillKeywords_restore]

/-- Names that an expression uses stand for themselves. -/
theorem inline_unused {env : Bindings} (e : Expr)
    (free : ∀ id, e.uses id ≠ [] → env.lookup id = none) : e.inline env = e := by
  by_cases read : ∃ id, e = name id .load
  · obtain ⟨id, rfl⟩ := read
    rw [inline_name, free id (by simp)]
    rfl
  · rw [inline_eq env (fun id same => read ⟨id, same⟩)]
    have operands : e.enteredParts.map (inline env) = e.enteredParts := by
      refine (List.map_congr_left fun x member => ?_).trans (List.map_id _)
      have := sizeOf_lt_of_mem_enteredParts member
      exact inline_unused x fun id used =>
        free id fun unused => used (uses_of_entered unused member)
    rw [operands, withEntered_enteredParts]
termination_by sizeOf e

theorem withEntered_eq_name {e : Expr} {parts : List Expr} {id : String} {use : NameUse}
    (same : e.withEntered parts = name id use) : e = name id use := by
  fun_cases withEntered e parts <;> simp_all [withEntered]

/-- Putting expressions for names into other operands gives the expression when it gives its
operands. -/
theorem inline_withEntered {env : Bindings} {e : Expr} {parts : List Expr}
    (notRead : ∀ id, e ≠ name id .load) (fits : parts.length = e.enteredParts.length)
    (operands : parts.map (inline env) = e.enteredParts) : (e.withEntered parts).inline env = e := by
  rw [inline_eq]
  · rw [enteredParts_withEntered fits, operands, withEntered_restore fits]
  · exact fun id same => notRead id (withEntered_eq_name same)

end Expr

end ProbeWeave.Syntax

namespace ProbeWeave.Weaving

open Syntax

/-- The names that an expression uses stand for nothing else. -/
def Leaves (env : Bindings) (e : Expr) : Prop :=
  ∀ id, e.uses id ≠ [] → env.lookup id = none

/-- The temporaries of moved calls stand for the calls. -/
def Binds (env : Bindings) (gs : List Hoist) : Prop :=
  ∀ g ∈ gs, env.lookup g.temporary = some g.call

/-- What the temporaries are bound to gives the calls, once the calls moved before are put back. The
calls in the first list were moved before. -/
def Restores (e : Expr) : List Hoist → List Hoist → Prop
  | _, [] => True
  | done, g :: later =>
    (∀ env, Leaves env e → Binds env done → g.bound.inline env = g.call) ∧
      Restores e (done ++ [g]) later

theorem Leaves.operand {env : Bindings} {e x : Expr} (leaves : Leaves env e)
    (member : x ∈ e.enteredParts) : Leaves env x :=
  fun id used => leaves id fun unused => used (Expr.uses_of_entered unused member)

theorem Leaves.innerCall {env : Bindings} {e c : Expr} (leaves : Leaves env e)
    (call : innerCall? e = some c) : Leaves env c :=
  fun id used => leaves id fun unused => used (Hoisting.uses_of_innerCall call unused)

theorem binds_append {env : Bindings} {gs ks : List Hoist} :
    Binds env (gs ++ ks) ↔ Binds env gs ∧ Binds env ks := by
  simp only [Binds, List.mem_append, or_imp, forall_and]

theorem restores_append {e : Expr} {done gs ks : List Hoist} :
    Restores e done (gs ++ ks) ↔ Restores e done gs ∧ Restores e (done ++ gs) ks := by
  induction gs generalizing done with
  | nil => simp [Restores]
  | cons g gs ih => simp [Restores, ih, and_assoc]

/-- More may have been moved before, and more names may be used. -/
theorem Restores.mono {e x : Expr} (leaves : ∀ env, Leaves env e → Leaves env x)
    {done more gs : List Hoist} (restores : Restores x done gs) (subset : ∀ g ∈ done, g ∈ more) :
    Restores e more gs := by
  induction gs generalizing done more with
  | nil => trivial
  | cons g gs ih =>
    refine ⟨fun env free binds => restores.1 env (leaves env free) fun d member =>
      binds d (subset d member), ih restores.2 fun d member => ?_⟩
    rcases List.mem_append.mp member with early | last
    · exact List.mem_append_left _ (subset d early)
    · exact List.mem_append_right _ last

namespace Hoisting

variable {probeOf : Call → Option String}

/-- The calls recorded for moves. -/
def hoistsOf (ms : List Move) : List Hoist :=
  ms.map Move.hoist

@[simp]
theorem hoistsOf_append (ms rs : List Move) : hoistsOf (ms ++ rs) = hoistsOf ms ++ hoistsOf rs :=
  List.map_append

@[simp]
theorem hoistsOf_below (path : Place) (ms : List Move) :
    hoistsOf (ms.map (·.below path)) = hoistsOf ms := by
  simp [hoistsOf, Function.comp_def]

theorem map_temporary_hoistsOf (ms : List Move) :
    (hoistsOf ms).map Hoist.temporary = temporaries ms :=
  List.map_map

/-- Putting the moved calls back undoes the walk over an expression. -/
def Undoes (probeOf : Call → Option String) (e : Expr) : Prop :=
  ∀ h : Hoisting, Restores e [] (hoistsOf (moves probeOf e h)) ∧
    ∀ env, Leaves env e → Binds env (hoistsOf (moves probeOf e h)) →
      (visit probeOf e h).1.inline env = e

theorem undoes_each {c : Expr} {es : List Expr} (each : ∀ x ∈ es, Undoes probeOf x)
    (leaves : ∀ x ∈ es, ∀ env, Leaves env c → Leaves env x) (n : Nat) (h : Hoisting) :
    Restores c [] (hoistsOf (movesEach probeOf n es h)) ∧
      ∀ env, Leaves env c → Binds env (hoistsOf (movesEach probeOf n es h)) →
        (visitEach probeOf es h).1.map (Expr.inline env) = es := by
  induction es generalizing n h with
  | nil => exact ⟨trivial, fun _ _ _ => rfl⟩
  | cons e rest ih =>
    obtain ⟨first, stays⟩ := each e List.mem_cons_self h
    obtain ⟨others, stay⟩ := ih (fun x member => each x (.tail _ member))
      (fun x member => leaves x (.tail _ member)) (n + 1) (visit probeOf e h).2
    have free := leaves e List.mem_cons_self
    rw [movesEach_cons, hoistsOf_append, hoistsOf_below]
    refine ⟨restores_append.mpr ⟨first.mono free (by simp), others.mono (fun _ => id) (by simp)⟩, ?_⟩
    intro env clean binds
    obtain ⟨here, there⟩ := binds_append.mp binds
    simp only [visitEach, List.map_cons, stays env (free env clean) here, stay env clean there]

theorem undoes_operands {c : Expr} (each : ∀ x ∈ c.enteredParts, Undoes probeOf x) (h : Hoisting) :
    Restores c [] (hoistsOf (operandMoves probeOf c h)) ∧
      ∀ env, Leaves env c → Binds env (hoistsOf (operandMoves probeOf c h)) →
        (visitEach probeOf c.enteredParts h).1.map (Expr.inline env) = c.enteredParts :=
  undoes_each each (fun _ member _ leaves => leaves.operand member) 0 h

/-- Putting expressions for names into other operands of a call gives the call, awaited or not. -/
theorem inline_refillCall {env : Bindings} {e c : Expr} {parts : List Expr}
    (call : innerCall? e = some c) (fits : parts.length = c.enteredParts.length)
    (operands : parts.map (Expr.inline env) = c.enteredParts) :
    (refillCall e c parts).inline env = e := by
  obtain ⟨start, callee, arguments, keywords, rfl⟩ := innerCall?_isCall call
  have inner := Expr.inline_withEntered (by simp) fits operands
  rcases innerCall?_eq_some call with rfl | rfl
  · exact inner
  · have awaited : [(Expr.call start callee arguments keywords).withEntered parts].map
        (Expr.inline env) = (Expr.await (.call start callee arguments keywords)).enteredParts :=
      congrArg (fun x => [x]) inner
    refine Expr.inline_withEntered ?_ ?_ awaited
    · simp
    · rfl

theorem undoes_visit (e : Expr) : Undoes probeOf e := by
  induction e using walk_induction with
  | step e operands inner =>
    intro h
    cases safe : h.safe with
    | false =>
      rw [moves_stopped e safe, visit_stopped e safe]
      exact ⟨trivial, fun env leaves _ => Expr.inline_unused e leaves⟩
    | true =>
      cases timed : timed? probeOf e with
      | none =>
        obtain ⟨restores, stays⟩ := undoes_operands operands h
        rw [moves_untimed timed, visit_untimed timed]
        refine ⟨restores, fun env leaves binds => ?_⟩
        by_cases read : ∃ id, e = .name id .load
        · obtain ⟨id, rfl⟩ := read
          exact Expr.inline_unused _ leaves
        · exact Expr.inline_withEntered (fun id same => read ⟨id, same⟩) (length_visitEach ..)
            (stays env leaves binds)
      | some found =>
        have call := innerCall?_of_timed? timed
        obtain ⟨restores, stays⟩ := undoes_operands (inner _ call) h
        rw [moves_timed timed, visit_timed timed]
        simp only [safe, if_true, hoistsOf_append, hoistsOf_below]
        refine ⟨restores_append.mpr ⟨restores.mono (fun env leaves => leaves.innerCall call) (by simp),
          fun env leaves binds => ?_, trivial⟩, fun env _ binds => ?_⟩
        · exact inline_refillCall call (length_visitEach ..) (stays env (leaves.innerCall call) binds)
        · rw [Expr.inline_name, (binds_append.mp binds).2 _ List.mem_cons_self]
          rfl

end Hoisting

end ProbeWeave.Weaving
