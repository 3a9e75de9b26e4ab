import ProbeWeave.Proofs.Evaluation.Entered

/-! # The effects that a run can perform

Every effect that a run performs is one of the listed effects of its expression, the list follows the
order of places, and an expression with effects holds an effect in the sense of the walk over all its
nodes.
-/

namespace ProbeWeave.Syntax

open Weaving

theorem mem_numbered {n : Nat} {ls : List (List Place)} {q : Place} :
    q ∈ numbered n ls ↔ ∃ i ps q', ls[i]? = some ps ∧ q' ∈ ps ∧ q = (n + i) :: q' := by
  induction ls generalizing n with
  | nil => simp [numbered]
  | cons ps ls ih =>
    simp only [numbered, List.mem_append, List.mem_map, ih]
    constructor
    · rintro (⟨q', member, rfl⟩ | ⟨i, ps', q', found, member, rfl⟩)
      · exact ⟨0, ps, q', rfl, member, rfl⟩
      · exact ⟨i + 1, ps', q', by simpa using found, member, by simp [Nat.add_assoc, Nat.add_comm 1]⟩
    · rintro ⟨i, ps', q', found, member, rfl⟩
      cases i with
      | zero =>
        cases found
        exact .inl ⟨q', member, rfl⟩
      | succ i =>
        exact .inr ⟨i, ps', q', by simpa using found, member, by simp [Nat.add_assoc, Nat.add_comm 1]⟩

namespace Expr

theorem mem_ownEffect {e : Expr} {q : Place} :
    q ∈ e.ownEffect ↔ q = [] ∧ isEffect (.expr e) = true := by
  unfold ownEffect
  split <;> simp_all

/-- An effect of an expression is its own or one of an operand. -/
theorem mem_effects {e : Expr} {q : Place} :
    q ∈ e.effects ↔ (∃ i x q', e.operands[i]? = some x ∧ q' ∈ x.effects ∧ q = i :: q') ∨
      q = [] ∧ isEffect (.expr e) = true := by
  rw [effects_eq, List.mem_append, mem_numbered, mem_ownEffect]
  simp only [Nat.zero_add, List.getElem?_map, Option.map_eq_some_iff]
  constructor
  · rintro (⟨i, _, q', ⟨x, found, rfl⟩, member, rfl⟩ | own)
    · exact .inl ⟨i, x, q', found, member, rfl⟩
    · exact .inr own
  · rintro (⟨i, x, q', found, member, rfl⟩ | own)
    · exact .inl ⟨i, _, q', ⟨x, found, rfl⟩, member, rfl⟩
    · exact .inr own

theorem effects_name (id : String) (use : NameUse) : (name id use).effects = [] := by
  simp [effects_eq, operands, numbered, ownEffect, isEffect]

end Expr

theorem pairwise_numbered {n : Nat} {ls : List (List Place)}
    (each : ∀ ps ∈ ls, ps.Pairwise Place.Before) : (numbered n ls).Pairwise Place.Before := by
  induction ls generalizing n with
  | nil => exact .nil
  | cons ps ls ih =>
    refine List.pairwise_append.mpr ⟨?_, ih fun qs member => each qs (.tail _ member), ?_⟩
    · refine (each ps List.mem_cons_self).map _ fun p q before => ?_
      exact .inr ⟨rfl, before⟩
    · intro p first q behind
      obtain ⟨p, -, rfl⟩ := List.mem_map.mp first
      obtain ⟨i, -, q, -, -, rfl⟩ := mem_numbered.mp behind
      exact .inl (by omega)

/-- The list of effects follows the order of places. -/
theorem Expr.pairwise_effects (e : Expr) : e.effects.Pairwise Place.Before := by
  rw [effects_eq]
  refine List.pairwise_append.mpr ⟨pairwise_numbered ?_, ?_, ?_⟩
  · intro ps member
    obtain ⟨x, operand, rfl⟩ := List.mem_map.mp member
    have := sizeOf_lt_of_mem_operands operand
    exact x.pairwise_effects
  · unfold ownEffect
    split <;> simp
  · intro p first q own
    obtain ⟨i, -, p, -, -, rfl⟩ := mem_numbered.mp first
    rw [(mem_ownEffect.mp own).1]
    exact trivial
termination_by sizeOf e

/-- What some of several expressions perform is performed by one of them. -/
theorem PerformsEach.mem {es : List Expr} {order : List Nat} {t : List Place}
    (run : PerformsEach es order t) {q : Place} (member : q ∈ t) :
    ∃ i x part q', es[i]? = some x ∧ Performs x part ∧ q' ∈ part ∧ q = i :: q' := by
  induction order generalizing t with
  | nil =>
    rw [performsEach_nil.mp run] at member
    cases member
  | cons i order ih =>
    obtain ⟨x, first, others, found, runFirst, runOthers, rfl⟩ := performsEach_cons.mp run
    rcases List.mem_append.mp member with here | later
    · obtain ⟨q', inFirst, rfl⟩ := List.mem_map.mp here
      exact ⟨i, x, first, q', found, runFirst, inFirst, rfl⟩
    · exact ih runOthers later

/-- A run performs nothing but the effects of its expression. -/
theorem Performs.mem_effects {e : Expr} {t : List Place} (run : Performs e t) {q : Place}
    (member : q ∈ t) : q ∈ e.effects := by
  cases run with
  | intro scheduled each =>
    rcases List.mem_append.mp member with member | own
    · obtain ⟨i, x, part, q', found, run, inner, rfl⟩ := each.mem member
      have := Expr.sizeOf_lt_of_mem_operands (List.mem_of_getElem? found)
      exact Expr.mem_effects.mpr (.inl ⟨i, x, q', found, run.mem_effects inner, rfl⟩)
    · exact Expr.mem_effects.mpr (.inr (Expr.mem_ownEffect.mp own))
termination_by sizeOf e

/-! ## Effects among all nodes of a tree -/

namespace Node

theorem mem_preorder_self (n : Node) : n ∈ n.preorder := by
  rw [preorder_eq]
  exact List.mem_cons_self

theorem mem_preorder_of_child {n c x : Node} (child : c ∈ n.children) (member : x ∈ c.preorder) :
    x ∈ n.preorder := by
  rw [preorder_eq n]
  exact .tail _ (List.mem_flatMap.mpr ⟨c, child, member⟩)

end Node

theorem Parameters.default_mem_children {p : Parameters} {x : Expr} (member : x ∈ p.defaults) :
    .expr x ∈ p.children := by
  simp only [defaults, List.filterMap_append, List.mem_append] at member
  simp only [children, List.mem_append, List.mem_map]
  rcases member with positional | keywordOnly
  · exact .inr ⟨x, positional, rfl⟩
  · exact .inl (.inl (.inr ⟨x, keywordOnly, rfl⟩))

theorem DictItem.part_mem_children {items : List DictItem} {item : DictItem} {x : Expr}
    (present : item ∈ items) (member : x ∈ item.parts) : .expr x ∈ (Expr.dict items).children := by
  simp only [Expr.children, List.mem_append, List.mem_map, List.mem_filterMap]
  cases item with
  | pair key value =>
    rcases List.mem_pair.mp member with rfl | rfl
    · exact .inl ⟨x, ⟨_, present, rfl⟩, rfl⟩
    · exact .inr ⟨_, present, rfl⟩
  | unpacked mapping =>
    rw [List.mem_singleton.mp member]
    exact .inr ⟨_, present, rfl⟩

namespace Expr

/-- Operands are children or children of children. -/
theorem operand_below {e x : Expr} (member : x ∈ e.operands) :
    .expr x ∈ e.children ∨ ∃ c ∈ e.children, .expr x ∈ c.children := by
  have ofClauses : ∀ {clauses : List Clause}, x ∈ clauses.flatMap Clause.parts →
      ∃ c ∈ clauses, .expr x ∈ (Node.clause c).children := by
    intro clauses member
    obtain ⟨⟨isAsync, target, source, conditions⟩, present, member⟩ := List.mem_flatMap.mp member
    refine ⟨_, present, ?_⟩
    simp only [Clause.parts, List.mem_cons] at member
    simp only [Node.children, List.mem_cons, List.mem_map]
    grind
  cases e with
  | dict items =>
    obtain ⟨item, present, member⟩ := List.mem_flatMap.mp member
    exact .inl (DictItem.part_mem_children present member)
  | lambda parameters body =>
    exact .inr ⟨_, List.mem_cons_self, Parameters.default_mem_children member⟩
  | listComprehension element clauses | setComprehension element clauses
  | generator element clauses =>
    rcases List.mem_append.mp member with inClauses | isElement
    · obtain ⟨c, present, below⟩ := ofClauses inClauses
      exact .inr ⟨_, .tail _ (List.mem_map_of_mem present), below⟩
    · rw [List.mem_singleton.mp isElement]
      exact .inl List.mem_cons_self
  | dictComprehension key value clauses =>
    rcases List.mem_append.mp member with inClauses | isElement
    · obtain ⟨c, present, below⟩ := ofClauses inClauses
      exact .inr ⟨_, .tail _ (.tail _ (List.mem_map_of_mem present)), below⟩
    · rcases List.mem_pair.mp isElement with rfl | rfl <;> simp [children]
  | call start callee arguments keywords =>
    simp only [operands, List.mem_cons, List.mem_append, List.mem_map] at member
    rcases member with rfl | positional | ⟨k, present, rfl⟩
    · exact .inl List.mem_cons_self
    · exact .inl (.tail _ (List.mem_append_left _ (List.mem_map_of_mem positional)))
    · exact .inr ⟨_, .tail _ (List.mem_append_right _ (List.mem_map_of_mem present)),
        List.mem_singleton_self _⟩
  | constant | name => cases member
  | _ => exact .inl (by simpa [operands, children] using member)

theorem mem_preorder_of_operand {e x : Expr} {n : Node} (member : x ∈ e.operands)
    (below : n ∈ (Node.expr x).preorder) : n ∈ (Node.expr e).preorder := by
  rcases operand_below member with child | ⟨c, child, grandchild⟩
  · exact Node.mem_preorder_of_child child below
  · exact Node.mem_preorder_of_child child (Node.mem_preorder_of_child grandchild below)

theorem exists_effect_of_mem_effects {e : Expr} {q : Place} (member : q ∈ e.effects) :
    ∃ n ∈ (Node.expr e).preorder, isEffect n = true := by
  rcases mem_effects.mp member with ⟨i, x, q', found, inner, rfl⟩ | ⟨rfl, own⟩
  · have operand := List.mem_of_getElem? found
    have := sizeOf_lt_of_mem_operands operand
    obtain ⟨n, below, effect⟩ := exists_effect_of_mem_effects inner
    exact ⟨n, mem_preorder_of_operand operand below, effect⟩
  · exact ⟨_, Node.mem_preorder_self _, own⟩
termination_by sizeOf e

/-- An expression with effects holds an effect for the walk over its nodes. -/
theorem hasEffects_of_mem_effects {e : Expr} {q : Place} (member : q ∈ e.effects) :
    hasEffects e = true :=
  List.any_eq_true.mpr (exists_effect_of_mem_effects member)

end Expr

end ProbeWeave.Syntax
