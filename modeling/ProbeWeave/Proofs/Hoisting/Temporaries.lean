import Mathlib.Data.List.Nodup
import Mathlib.Data.List.Perm.Subperm
import Std.Data.String.ToNat
import ProbeWeave.Proofs.Hoisting.Moves
import ProbeWeave.Proofs.Syntax.NameUses
import ProbeWeave.Weaving.Hoist

/-! # Temporaries of moved calls

The walk binds every call that it moves to a temporary of its own and puts the temporary in the place
of the call: either in the operands of a call that is moved later, or in what stays of the expression.
So each temporary is bound once and read once, and putting the calls back where their temporaries
stand gives the expression again.
-/

namespace ProbeWeave.Weaving

/-! ### Names handed out by a supply

A supply counts upwards, so all names that it hands out one after the other differ. It passes over
the names that are taken and over no others.
-/

namespace Supply

theorem nameAt_injective (s : Supply) {m n : Nat} (same : s.nameAt m = s.nameAt n) : m = n :=
  Nat.repr_injective ((String.append_right_inj s.stem).mp same)

theorem le_search (s : Supply) (tries n : Nat) : n ≤ s.search tries n := by
  induction tries generalizing n with
  | zero => exact Nat.le_refl n
  | succ tries ih =>
    rw [search]
    split
    · exact Nat.le_of_succ_le (ih (n + 1))
    · exact Nat.le_refl n

/-- A search passes over taken names only, and it ends at one only if it has used up its tries. -/
theorem taken_of_search (s : Supply) (tries n : Nat) :
    (∀ k, n ≤ k → k < s.search tries n → s.nameAt k ∈ s.taken) ∧
      (s.nameAt (s.search tries n) ∈ s.taken → s.search tries n = n + tries) := by
  induction tries generalizing n with
  | zero => exact ⟨fun k from_ below => absurd below (Nat.not_lt.mpr from_), fun _ => rfl⟩
  | succ tries ih =>
    rw [search]
    split
    · rename_i first
      obtain ⟨passed, last⟩ := ih (n + 1)
      refine ⟨fun k from_ below => ?_, fun occupied => ?_⟩
      · rcases Nat.eq_or_lt_of_le from_ with rfl | later
        · simpa using first
        · exact passed k later below
      · rw [last occupied]
        omega
    · rename_i first
      refine ⟨fun k from_ below => absurd below (Nat.not_lt.mpr from_), fun occupied => ?_⟩
      exact absurd occupied (by simpa using first)

/-- With a try for every taken name the search ends at a name that is not taken. -/
theorem search_free (s : Supply) (n : Nat) : s.nameAt (s.search s.taken.length n) ∉ s.taken := by
  intro occupied
  obtain ⟨passed, last⟩ := s.taken_of_search s.taken.length n
  -- Otherwise more names than are taken, one for each number from the first to the last, are taken.
  have all : (List.range' n (s.taken.length + 1)).map s.nameAt ⊆ s.taken := by
    intro name member
    obtain ⟨k, within, rfl⟩ := List.mem_map.mp member
    rw [List.mem_range'_1] at within
    rcases Nat.lt_or_ge k (s.search s.taken.length n) with below | above
    · exact passed k within.1 below
    · obtain rfl : k = s.search s.taken.length n := by rw [last occupied] at above ⊢; omega
      exact occupied
  have distinct : ((List.range' n (s.taken.length + 1)).map s.nameAt).Nodup :=
    (List.nodup_range' 1).map fun _ _ same => s.nameAt_injective same
  have fits := (distinct.subperm all).length_le
  rw [List.length_map, List.length_range'] at fits
  omega

/-- A supply handed out names and became another one: the names with a number up to the last one that
were not taken. -/
structure Issued (before : Supply) (names : List String) (after : Supply) : Prop where
  stem : after.stem = before.stem
  counted : before.count ≤ after.count
  taken : ∀ id, id ∈ after.taken ↔ id ∈ before.taken ∨ id ∈ names
  numbers : ∃ ns : List Nat, names = ns.map before.nameAt ∧ ns.Pairwise (· < ·) ∧
    ∀ n, n ∈ ns ↔ before.count < n ∧ n ≤ after.count ∧ before.nameAt n ∉ before.taken

namespace Issued

protected theorem refl (s : Supply) : Issued s [] s :=
  ⟨rfl, Nat.le_refl _, by simp, [], rfl, .nil, fun n => by simp; omega⟩

theorem next (s : Supply) : Issued s [s.next.1] s.next.2 := by
  have later : s.count + 1 ≤ s.search s.taken.length (s.count + 1) := s.le_search ..
  obtain ⟨passed, -⟩ := s.taken_of_search s.taken.length (s.count + 1)
  refine ⟨rfl, Nat.le_of_succ_le later, fun id => ?_, [_], rfl, List.pairwise_singleton .., fun n => ?_⟩
  · simp only [Supply.next, List.mem_cons, List.not_mem_nil, or_false]
    exact or_comm
  · rw [List.mem_singleton]
    constructor
    · rintro rfl
      exact ⟨later, Nat.le_refl _, s.search_free _⟩
    · rintro ⟨above, below, free⟩
      exact Nat.le_antisymm below (Nat.not_lt.mp fun less => free (passed n above less))

/-- Names handed out in two steps are handed out one after the other. -/
theorem append {a b c : Supply} {names more : List String} (first : Issued a names b)
    (second : Issued b more c) : Issued a (names ++ more) c := by
  obtain ⟨ns, rfl, ascending, free⟩ := first.numbers
  obtain ⟨ms, rfl, ascending', free'⟩ := second.numbers
  have same : b.nameAt = a.nameAt := by
    funext n
    rw [nameAt, nameAt, first.stem]
  have known (id : String) : id ∈ b.taken ↔ id ∈ a.taken ∨ id ∈ ns.map a.nameAt := first.taken id
  have counted := first.counted
  have counted' := second.counted
  refine ⟨second.stem.trans first.stem, Nat.le_trans counted counted', fun id => ?_, ns ++ ms, ?_,
    List.pairwise_append.mpr ⟨ascending, ascending', fun n here m there => ?_⟩, fun n => ?_⟩
  · rw [second.taken, known, List.mem_append, or_assoc]
  · rw [List.map_append, same]
  · exact Nat.lt_of_le_of_lt ((free n).mp here).2.1 ((free' m).mp there).1
  · -- A number that is counted in the second step was not handed out in the first one.
    have fresh (late : b.count < n) : b.nameAt n ∉ b.taken ↔ a.nameAt n ∉ a.taken := by
      rw [known, same, not_or, and_iff_left]
      rintro member
      obtain ⟨k, here, sameName⟩ := List.mem_map.mp member
      have := ((free k).mp here).2.1
      have := a.nameAt_injective sameName
      omega
    rw [List.mem_append, free, free']
    constructor
    · rintro (⟨above, below, new⟩ | ⟨above, below, new⟩)
      · exact ⟨above, Nat.le_trans below counted', new⟩
      · exact ⟨Nat.lt_of_le_of_lt counted above, below, (fresh above).mp new⟩
    · rintro ⟨above, below, new⟩
      rcases Nat.lt_or_ge b.count n with late | early
      · exact .inr ⟨late, below, (fresh late).mpr new⟩
      · exact .inl ⟨above, early, new⟩

theorem nodup {a b : Supply} {names : List String} (issued : Issued a names b) : names.Nodup := by
  obtain ⟨ns, rfl, ascending, -⟩ := issued.numbers
  exact ascending.map _ fun m n less same => by
    have := a.nameAt_injective same
    omega

end Issued

end Supply

/-! ### The temporaries of moves -/

open Syntax Supply

namespace Hoisting

variable {probeOf : Call → Option String}

/-- The temporaries of moves, in the order in which they are bound. -/
def temporaries (ms : List Move) : List String :=
  ms.map (·.hoist.temporary)

@[simp]
theorem temporaries_append (ms rs : List Move) :
    temporaries (ms ++ rs) = temporaries ms ++ temporaries rs :=
  List.map_append

@[simp]
theorem temporaries_below (path : Place) (ms : List Move) :
    temporaries (ms.map (·.below path)) = temporaries ms := by
  simp [temporaries, Function.comp_def]

theorem skip_supply (h : Hoisting) (parts : List Expr) : (h.skip parts).supply = h.supply := by
  unfold skip
  split <;> rfl

/-- The supply behind an expression of which nothing is moved itself is the one behind its operands. -/
theorem visit_untimed_supply {e : Expr} (untimed : timed? probeOf e = none) (h : Hoisting) :
    (visit probeOf e h).2.supply = (visitEach probeOf e.enteredParts h).2.supply := by
  rw [visit_untimed untimed]
  simp only [apply_ite Hoisting.supply, skip_supply, unsafely, ite_self]

theorem issued_each {es : List Expr}
    (each : ∀ x ∈ es, ∀ h : Hoisting,
      Issued h.supply (temporaries (moves probeOf x h)) (visit probeOf x h).2.supply)
    (n : Nat) (h : Hoisting) :
    Issued h.supply (temporaries (movesEach probeOf n es h)) (visitEach probeOf es h).2.supply := by
  induction es generalizing n h with
  | nil => exact .refl _
  | cons e rest ih =>
    rw [movesEach_cons, temporaries_append, temporaries_below]
    exact (each e List.mem_cons_self h).append (ih (fun x member => each x (.tail _ member)) _ _)

/-- The temporaries of moved calls are handed out one after the other. -/
theorem issued_visit (e : Expr) : ∀ h : Hoisting,
    Issued h.supply (temporaries (moves probeOf e h)) (visit probeOf e h).2.supply := by
  induction e using walk_induction with
  | step e operands inner =>
    intro h
    cases safe : h.safe with
    | false =>
      rw [moves_stopped e safe, visit_stopped e safe]
      exact .refl _
    | true =>
      cases timed : timed? probeOf e with
      | none =>
        rw [moves_untimed timed, visit_untimed_supply timed]
        exact issued_each operands 0 h
      | some found =>
        have before := issued_each (inner _ (innerCall?_of_timed? timed)) 0 h
        rw [moves_timed timed, visit_timed timed]
        simp only [safe, if_true, temporaries_append, temporaries_below]
        exact before.append (.next _)

theorem nodup_each (n : Nat) (es : List Expr) (h : Hoisting) :
    (temporaries (movesEach probeOf n es h)).Nodup :=
  (issued_each (fun x _ => issued_visit x) n h).nodup

/-! ## Every temporary is bound once and read once -/

/-- How a name is used where the temporary of a moved call is bound. -/
def bindingUses (id : String) (m : Move) : List NameUse :=
  (if m.hoist.temporary = id then [.store] else []) ++ m.hoist.bound.uses id

theorem bindingUses_below (id : String) (path : Place) (ms : List Move) :
    (ms.map (·.below path)).flatMap (bindingUses id) = ms.flatMap (bindingUses id) := by
  rw [List.flatMap_map]
  rfl

/-- How a name is used where temporaries are bound, and then in what stays: a temporary is bound and
then read, in what stays or where a later temporary is bound, and no other name is used. -/
structure Once (id : String) (names : List String) (binding stays : List NameUse) : Prop where
  bound : id ∈ names →
    binding = [.store, .load] ∧ stays = [] ∨ binding = [.store] ∧ stays = [.load]
  absent : id ∉ names → binding = [] ∧ stays = []

theorem Once.perm {id : String} {names : List String} {binding stays stays' : List NameUse}
    (once : Once id names binding stays) (perm : stays'.Perm stays) :
    Once id names binding stays' := by
  refine ⟨fun present => ?_, fun absent => ?_⟩
  · rcases once.bound present with ⟨bound, rfl⟩ | ⟨bound, rfl⟩
    · exact .inl ⟨bound, List.perm_nil.mp perm⟩
    · exact .inr ⟨bound, List.perm_singleton.mp perm⟩
  · obtain ⟨bound, rfl⟩ := once.absent absent
    exact ⟨bound, List.perm_nil.mp perm⟩

theorem Once.append {id : String} {names names' : List String}
    {binding binding' stays stays' : List NameUse} (first : Once id names binding stays)
    (second : Once id names' binding' stays') (distinct : (names ++ names').Nodup) :
    Once id (names ++ names') (binding ++ binding') (stays ++ stays') := by
  have apart := (List.nodup_append.mp distinct).2.2
  refine ⟨fun present => ?_, fun absent => ?_⟩
  · rcases List.mem_append.mp present with here | there
    · obtain ⟨rfl, rfl⟩ := second.absent fun there => apart id here id there rfl
      simpa using first.bound here
    · obtain ⟨rfl, rfl⟩ := first.absent fun here => apart id here id there rfl
      simpa using second.bound there
  · rw [List.mem_append, not_or] at absent
    obtain ⟨rfl, rfl⟩ := first.absent absent.1
    exact second.absent absent.2

/-- What stays is bound to one more temporary, which stays in its place. -/
theorem Once.bind {id temporary : String} {names : List String} {binding stays : List NameUse}
    (once : Once id names binding stays) (distinct : (names ++ [temporary]).Nodup) :
    Once id (names ++ [temporary])
      (binding ++ ((if temporary = id then [.store] else []) ++ stays))
      (if temporary = id then [.load] else []) := by
  have apart := (List.nodup_append.mp distinct).2.2
  refine ⟨fun present => ?_, fun absent => ?_⟩
  · rcases List.mem_append.mp present with here | last
    · have other : temporary ≠ id := fun same => apart id here temporary (by simp) same.symm
      rcases once.bound here with ⟨rfl, rfl⟩ | ⟨rfl, rfl⟩ <;> simp [other]
    · obtain rfl := List.mem_singleton.mp last
      obtain ⟨rfl, rfl⟩ := once.absent fun here => apart id here id (by simp) rfl
      simp
  · rw [List.mem_append, List.mem_singleton, not_or] at absent
    obtain ⟨rfl, rfl⟩ := once.absent absent.1
    have other : temporary ≠ id := fun same => absent.2 same.symm
    simp [other]

theorem once_each {id : String} {es : List Expr}
    (each : ∀ x ∈ es, x.uses id = [] → ∀ h : Hoisting,
      Once id (temporaries (moves probeOf x h)) ((moves probeOf x h).flatMap (bindingUses id))
        ((visit probeOf x h).1.uses id))
    (unused : ∀ x ∈ es, x.uses id = []) (n : Nat) (h : Hoisting) :
    Once id (temporaries (movesEach probeOf n es h))
      ((movesEach probeOf n es h).flatMap (bindingUses id))
      ((visitEach probeOf es h).1.flatMap (Expr.uses id)) := by
  induction es generalizing n h with
  | nil => exact ⟨by simp [temporaries], fun _ => ⟨rfl, rfl⟩⟩
  | cons e rest ih =>
    have distinct : (temporaries (movesEach probeOf n (e :: rest) h)).Nodup := nodup_each n _ h
    rw [movesEach_cons, temporaries_append, temporaries_below] at distinct ⊢
    rw [List.flatMap_append, bindingUses_below]
    exact (each e List.mem_cons_self (unused e List.mem_cons_self) h).append
      (ih (fun x member => each x (.tail _ member)) (fun x member => unused x (.tail _ member)) _ _)
      distinct

theorem uses_refillCall {id : String} {e c : Expr} {parts : List Expr} (call : innerCall? e = some c)
    (unused : e.uses id = []) (fits : parts.length = c.enteredParts.length) :
    ((refillCall e c parts).uses id).Perm (parts.flatMap (Expr.uses id)) := by
  rcases innerCall?_eq_some call with rfl | rfl
  · obtain ⟨start, callee, arguments, keywords, rfl⟩ := innerCall?_isCall call
    exact Expr.uses_withEntered unused fits
  · have inner := Expr.uses_of_entered unused List.mem_cons_self
    have awaited : (Expr.await (c.withEntered parts)).uses id = (c.withEntered parts).uses id := by
      rw [Expr.uses_eq_children (by simp)]
      simp [Expr.children]
    exact awaited ▸ Expr.uses_withEntered inner fits

theorem uses_of_innerCall {id : String} {e c : Expr} (call : innerCall? e = some c)
    (unused : e.uses id = []) : c.uses id = [] := by
  rcases innerCall?_eq_some call with rfl | rfl
  · exact unused
  · exact Expr.uses_of_entered unused List.mem_cons_self

theorem once_operands {id : String} {c : Expr}
    (each : ∀ x ∈ c.enteredParts, x.uses id = [] → ∀ h : Hoisting,
      Once id (temporaries (moves probeOf x h)) ((moves probeOf x h).flatMap (bindingUses id))
        ((visit probeOf x h).1.uses id))
    (unused : c.uses id = []) (h : Hoisting) :
    Once id (temporaries (operandMoves probeOf c h))
      ((operandMoves probeOf c h).flatMap (bindingUses id))
      ((visitEach probeOf c.enteredParts h).1.flatMap (Expr.uses id)) :=
  once_each each (fun _ member => Expr.uses_of_entered unused member) 0 h

/-- A name that an expression does not use is bound and read once if it is the temporary of a moved
call, and it is not used otherwise. -/
theorem once_visit {id : String} (e : Expr) (unused : e.uses id = []) : ∀ h : Hoisting,
    Once id (temporaries (moves probeOf e h)) ((moves probeOf e h).flatMap (bindingUses id))
      ((visit probeOf e h).1.uses id) := by
  induction e using walk_induction with
  | step e operands inner =>
    intro h
    cases safe : h.safe with
    | false =>
      rw [moves_stopped e safe, visit_stopped e safe]
      exact ⟨by simp [temporaries], fun _ => ⟨rfl, unused⟩⟩
    | true =>
      cases timed : timed? probeOf e with
      | none =>
        rw [moves_untimed timed, visit_untimed timed]
        exact (once_operands operands unused h).perm
          (Expr.uses_withEntered unused (length_visitEach ..))
      | some found =>
        have call := innerCall?_of_timed? timed
        have distinct : (temporaries (moves probeOf e h)).Nodup := (issued_visit e h).nodup
        have once := (once_operands (inner _ call) (uses_of_innerCall call unused) h).perm
          (uses_refillCall call unused (length_visitEach ..))
        rw [moves_timed timed] at distinct
        rw [moves_timed timed, visit_timed timed]
        simp only [safe, if_true, temporaries_append, temporaries_below] at distinct ⊢
        have bound := once.bind distinct
        simpa [bindingUses_below, bindingUses, temporaries] using bound

end Hoisting

end ProbeWeave.Weaving
