import ProbeWeave.Proofs.Evaluation.Entered
import ProbeWeave.Proofs.Syntax.Blocks

/-! # Where a name occurs

`uses` lists how a name is used in a tree, in the order in which a walk over all nodes meets it. When
other operands or other blocks are put into a tree, the uses in what was put in are added to those in
what is left.
-/

namespace ProbeWeave.Syntax

namespace Node

/-- How a node uses a name. -/
def use? (id : String) : Node → Option NameUse
  | .expr (.name id' use) => if id' = id then some use else none
  | _ => none

/-- How a name is used at and below a node. -/
def uses (id : String) (n : Node) : List NameUse :=
  n.preorder.filterMap (use? id)

theorem uses_eq (id : String) (n : Node) :
    n.uses id = (n.use? id).toList ++ n.children.flatMap (uses id) := by
  simp only [uses]
  rw [preorder_eq, List.filterMap_cons, List.filterMap_flatMap]
  cases n.use? id <;> rfl

/-- A name that is not used in a tree is not used in a part of it. -/
theorem uses_of_child {id : String} {n c : Node} (unused : n.uses id = []) (child : c ∈ n.children) :
    c.uses id = [] := by
  rw [uses_eq, List.append_eq_nil_iff, List.flatMap_eq_nil_iff] at unused
  exact unused.2 c child

end Node

namespace Expr

/-- How a name is used in an expression. -/
def uses (id : String) (e : Expr) : List NameUse :=
  (Node.expr e).uses id

@[simp]
theorem uses_expr (id : String) (e : Expr) : (Node.expr e).uses id = e.uses id :=
  rfl

@[simp]
theorem uses_name (id id' : String) (use : NameUse) :
    (name id' use).uses id = if id' = id then [use] else [] := by
  rw [uses, Node.uses_eq]
  simp only [Node.use?, Node.children, children, List.flatMap_nil, List.append_nil]
  split <;> rfl

theorem uses_eq_children {id : String} {e : Expr} (notName : ∀ id use, e ≠ name id use) :
    e.uses id = e.children.flatMap (Node.uses id) := by
  rw [uses, Node.uses_eq]
  cases e <;> simp_all [Node.use?, Node.children]

@[simp]
theorem uses_member (id : String) (value : Expr) (field : String) :
    (member value field).uses id = value.uses id := by
  rw [uses_eq_children (by simp)]
  simp [children]

@[simp]
theorem uses_call (id : String) (start : Position) (callee : Expr) (arguments : List Expr)
    (keywords : List Keyword) :
    (call start callee arguments keywords).uses id =
      callee.uses id ++ (arguments.flatMap (uses id) ++
        (keywords.map Keyword.value).flatMap (uses id)) := by
  have keyword : ∀ k : Keyword, (Node.keyword k).uses id = k.value.uses id := by
    intro k
    rw [Node.uses_eq]
    simp [Node.use?, Node.children]
  rw [uses_eq_children (by simp)]
  simp [children, List.flatMap_map, keyword]

theorem uses_dict_eq (id : String) (items : List DictItem) :
    (dict items).uses id = (items.filterMap DictItem.key?).flatMap (uses id) ++
      items.flatMap fun item => item.value.uses id := by
  rw [uses_eq_children (by simp), children, List.flatMap_append, List.flatMap_map, List.flatMap_map]
  rfl

theorem uses_dict (id : String) (items : List DictItem) :
    ((dict items).uses id).Perm ((items.flatMap DictItem.parts).flatMap (uses id)) := by
  rw [uses_dict_eq]
  induction items with
  | nil => exact .refl _
  | cons item items ih =>
    rw [List.flatMap_cons, List.flatMap_cons, List.flatMap_append]
    refine List.Perm.trans ?_ (ih.append_left _)
    cases item with
    | pair key value =>
      have keys : (DictItem.pair key value :: items).filterMap DictItem.key? =
          key :: items.filterMap DictItem.key? := rfl
      simp only [keys, DictItem.parts, List.flatMap_cons, List.flatMap_nil, List.append_nil,
        List.append_assoc]
      exact (List.perm_append_comm_assoc _ _ _).append_left _
    | unpacked mapping =>
      have keys : (DictItem.unpacked mapping :: items).filterMap DictItem.key? =
          items.filterMap DictItem.key? := rfl
      simp only [keys, DictItem.parts, List.flatMap_cons, List.flatMap_nil, List.append_nil]
      exact List.perm_append_comm_assoc _ _ _

/-- What is directly below an expression apart from the operands that certainly run; a name is below
itself. -/
def restNodes (e : Expr) : List Node :=
  match e with
  | name .. => [.expr e]
  | lambda .. | listComprehension .. | setComprehension .. | dictComprehension .. | generator .. =>
    e.children
  | _ => e.furtherOperands.map .expr

theorem uses_split (id : String) (e : Expr) :
    (e.uses id).Perm (e.enteredParts.flatMap (uses id) ++ e.restNodes.flatMap (Node.uses id)) := by
  cases e with
  | dict items => simpa [enteredParts, restNodes, furtherOperands] using uses_dict id items
  | name id' use => simp [enteredParts, restNodes]
  | call => simp [enteredParts, restNodes, furtherOperands]
  | boolean op operands =>
    have split := congrArg (List.flatMap (uses id)) (List.take_append_drop 1 operands)
    rw [List.flatMap_append] at split
    rw [uses_eq_children (by simp)]
    simp only [children, enteredParts, restNodes, furtherOperands, List.flatMap_map, uses_expr]
    rw [split]
  | compare left ops comparators =>
    have split := congrArg (List.flatMap (uses id)) (List.take_append_drop 1 comparators)
    rw [List.flatMap_append] at split
    rw [uses_eq_children (by simp)]
    simp only [children, enteredParts, restNodes, furtherOperands, List.flatMap_map, uses_expr,
      List.flatMap_cons, List.append_assoc]
    rw [split]
  | _ =>
    rw [uses_eq_children (by simp)]
    simp [children, enteredParts, restNodes, furtherOperands, List.flatMap_map]

theorem restNodes_withEntered {e : Expr} {parts : List Expr}
    (fits : parts.length = e.enteredParts.length) : (e.withEntered parts).restNodes = e.restNodes := by
  have further := furtherOperands_withEntered fits
  fun_cases withEntered e parts <;> simp_all [restNodes, furtherOperands, withEntered]

/-- A name that an expression does not use is used in the expression with other operands as often as
it is in the operands. -/
theorem uses_withEntered {id : String} {e : Expr} {parts : List Expr} (unused : e.uses id = [])
    (fits : parts.length = e.enteredParts.length) :
    ((e.withEntered parts).uses id).Perm (parts.flatMap (uses id)) := by
  have own := uses_split id e
  have new := uses_split id (e.withEntered parts)
  rw [unused, List.nil_perm, List.append_eq_nil_iff] at own
  rwa [enteredParts_withEntered fits, restNodes_withEntered fits, own.2, List.append_nil] at new

theorem uses_of_entered {id : String} {e x : Expr} (unused : e.uses id = [])
    (member : x ∈ e.enteredParts) : x.uses id = [] := by
  have split := uses_split id e
  rw [unused, List.nil_perm, List.append_eq_nil_iff, List.flatMap_eq_nil_iff] at split
  exact split.1 x member

end Expr

namespace Stmt

/-- How a name is used in a statement. -/
def uses (id : String) (s : Stmt) : List NameUse :=
  (Node.stmt s).uses id

@[simp]
theorem uses_stmt (id : String) (s : Stmt) : (Node.stmt s).uses id = s.uses id :=
  rfl

theorem uses_eq (id : String) (s : Stmt) : s.uses id = s.children.flatMap (Node.uses id) :=
  Node.uses_eq id (.stmt s)

theorem uses_of_slot {id : String} {s : Stmt} {e : Expr} (slot : s.slot? = some e)
    (unused : s.uses id = []) : e.uses id = [] := by
  have below : ∀ n ∈ s.children, n.uses id = [] := fun n => Node.uses_of_child unused
  cases s with
  | withBlock lines isAsync items body =>
    cases items with
    | nil => cases slot
    | cons item items =>
      cases slot
      exact Node.uses_of_child (below (.withItem item) (by simp [children])) (by simp [Node.children])
  | augmented lines target op value =>
    cases target with
    | name =>
      cases slot
      exact below (.expr _) (by simp [children])
    | _ => cases slot
  | expression | assign | returned | annotated | branch | forLoop | raise | matchBlock =>
    cases slot
    exact below (.expr _) (by simp [children])
  | _ => cases slot

theorem uses_of_block {id : String} {s x : Stmt} {b : List Stmt} (unused : s.uses id = [])
    (block : b ∈ s.blocks) (member : x ∈ b) : x.uses id = [] := by
  rcases block_below block member with child | ⟨n, child, grandchild⟩
  · exact Node.uses_of_child unused child
  · exact Node.uses_of_child (Node.uses_of_child unused child) grandchild

/-- How a name is used in a block. -/
def blockUses (id : String) (b : List Stmt) : List NameUse :=
  b.flatMap (uses id)

@[simp]
theorem uses_withItem (id : String) (w : WithItem) :
    (Node.withItem w).uses id = w.context.uses id ++ w.target.toList.flatMap (Expr.uses id) := by
  rw [Node.uses_eq]
  simp [Node.use?, Node.children, List.flatMap_map]

theorem uses_handlerWithBody {id : String} {h : Handler} (unused : (Node.handler h).uses id = [])
    (body : List Stmt) : (Node.handler (h.withBody body)).uses id = blockUses id body := by
  cases h
  rw [Node.uses_eq] at unused ⊢
  simp only [Node.children, List.flatMap_append, List.append_eq_nil_iff] at unused
  simp only [Handler.withBody, Node.use?, Node.children, List.flatMap_append, unused.2.1]
  simp [List.flatMap_map, blockUses]

theorem uses_caseWithBody {id : String} {c : Case} (unused : (Node.matchCase c).uses id = [])
    (body : List Stmt) : (Node.matchCase (c.withBody body)).uses id = blockUses id body := by
  cases c
  rw [Node.uses_eq] at unused ⊢
  simp only [Node.children, List.flatMap_append, List.flatMap_cons, List.append_eq_nil_iff] at unused
  simp only [Case.withBody, Node.use?, Node.children, List.flatMap_append, List.flatMap_cons,
    unused.2.1, unused.2.2.1]
  simp [List.flatMap_map, blockUses]

/-- Clauses with other bodies use a name as the bodies do. -/
theorem uses_zipWith {α : Type} {id : String} (node : α → Node) (withBody : α → List Stmt → α)
    (replaced : ∀ x, (node x).uses id = [] →
      ∀ body, (node (withBody x body)).uses id = blockUses id body)
    {xs : List α} (unused : ∀ x ∈ xs, (node x).uses id = []) {bodies : List (List Stmt)}
    (fits : bodies.length = xs.length) :
    ((xs.zipWith withBody bodies).map node).flatMap (Node.uses id) =
      bodies.flatMap (blockUses id) := by
  induction xs generalizing bodies with
  | nil =>
    rw [List.length_eq_zero_iff.mp fits]
    rfl
  | cons x xs ih =>
    match bodies, fits with
    | b :: bodies, fits =>
      simp only [List.zipWith_cons_cons, List.map_cons, List.flatMap_cons]
      rw [replaced x (unused x List.mem_cons_self),
        ih (fun y member => unused y (.tail _ member)) (by simpa using fits)]

/-- A name that a statement does not use is used in the statement with other blocks as it is in the
blocks, which come in some order. -/
theorem uses_withBlocks {id : String} {s : Stmt} {bodies : List (List Stmt)} (unused : s.uses id = [])
    (fits : bodies.length = s.blocks.length) :
    ∃ bs : List (List Stmt), bs.Perm bodies ∧
      (s.withBlocks bodies).uses id = bs.flatMap (blockUses id) := by
  cases s with
  | forLoop | whileLoop | branch =>
    obtain ⟨b₁, b₂, rfl⟩ := List.length_eq_two.mp fits
    refine ⟨_, .refl _, ?_⟩
    rw [uses_eq] at unused
    rw [withBlocks, uses_eq]
    simp_all [children, blockUses, List.flatMap_map]
  | withBlock lines isAsync items body =>
    obtain ⟨b, rfl⟩ := List.length_eq_one_iff.mp fits
    refine ⟨_, .refl _, ?_⟩
    rw [uses_eq] at unused
    simp only [children, List.flatMap_append, List.append_eq_nil_iff] at unused
    rw [withBlocks, uses_eq]
    simp only [children, List.flatMap_append, unused.1, List.nil_append]
    simp [blockUses, List.flatMap_map]
  | tryBlock lines isGroup body handlers otherwise final =>
    obtain ⟨b₁, b₂, b₃, rest, rfl⟩ := exists_three fits (by simp [blocks])
    refine ⟨b₁ :: (rest ++ [b₂, b₃]), .cons _ List.perm_append_comm, ?_⟩
    rw [uses_eq] at unused
    simp only [children, List.flatMap_append, List.append_eq_nil_iff, List.flatMap_map,
      List.flatMap_eq_nil_iff] at unused
    have clauses := uses_zipWith Node.handler Handler.withBody
      (fun _ => uses_handlerWithBody) unused.1.2 (by simpa [blocks] using fits)
    rw [withBlocks, uses_eq]
    simp only [children, List.flatMap_append, clauses]
    simp [blockUses, List.flatMap_map]
  | matchBlock lines subject cases =>
    refine ⟨_, .refl _, ?_⟩
    rw [uses_eq] at unused
    simp only [children, List.flatMap_cons, List.append_eq_nil_iff, List.flatMap_map,
      List.flatMap_eq_nil_iff] at unused
    have clauses := uses_zipWith Node.matchCase Case.withBody
      (fun _ => uses_caseWithBody) unused.2 (by simpa [blocks] using fits)
    rw [withBlocks, uses_eq]
    simp only [children, List.flatMap_cons, clauses, unused.1, List.nil_append]
  | _ =>
    obtain rfl : bodies = [] := List.length_eq_zero_iff.mp fits
    exact ⟨[], .refl _, unused⟩

/-- A name that a statement does not use is used in the statement with other blocks and another slot
first as it is in the slot and then as it is in the blocks. -/
theorem uses_withSlot {id : String} {s : Stmt} {e : Expr} (slot : s.slot? = some e)
    {bodies : List (List Stmt)} (unused : s.uses id = []) (fits : bodies.length = s.blocks.length)
    (e' : Expr) :
    ∃ bs : List (List Stmt), bs.Perm bodies ∧
      ((s.withBlocks bodies).withSlot e').uses id = e'.uses id ++ bs.flatMap (blockUses id) := by
  cases s with
  | forLoop | branch =>
    obtain ⟨b₁, b₂, rfl⟩ := List.length_eq_two.mp fits
    refine ⟨_, .refl _, ?_⟩
    rw [uses_eq] at unused
    rw [withBlocks, withSlot, uses_eq]
    simp_all [children, blockUses, List.flatMap_map]
  | withBlock lines isAsync items body =>
    obtain ⟨b, rfl⟩ := List.length_eq_one_iff.mp fits
    cases items with
    | nil => cases slot
    | cons item items =>
      refine ⟨_, .refl _, ?_⟩
      rw [uses_eq] at unused
      simp only [children, List.flatMap_append, List.map_cons, List.flatMap_cons, uses_withItem,
        List.append_eq_nil_iff] at unused
      rw [withBlocks, withSlot, uses_eq]
      · simp only [children, List.flatMap_append, List.map_cons, List.flatMap_cons, uses_withItem,
          unused.1.1.2, unused.1.2, List.append_nil]
        simp [blockUses, List.flatMap_map]
  | matchBlock lines subject cases =>
    obtain ⟨bs, perm, blocks⟩ := uses_withBlocks unused fits
    refine ⟨bs, perm, ?_⟩
    rw [uses_eq] at unused
    rw [withBlocks, uses_eq] at blocks
    rw [withBlocks, withSlot, uses_eq]
    simp only [children, List.flatMap_cons, List.append_eq_nil_iff] at unused blocks ⊢
    rw [← blocks, unused.1, List.nil_append, Expr.uses_expr]
  | augmented lines target op value =>
    obtain rfl : bodies = [] := List.length_eq_zero_iff.mp fits
    cases target with
    | name id' use =>
      refine ⟨[], .refl _, ?_⟩
      rw [uses_eq] at unused
      simp only [withBlocks, withSlot]
      rw [uses_eq]
      simp_all [children]
    | _ => cases slot
  | expression | assign | returned | annotated | raise =>
    obtain rfl : bodies = [] := List.length_eq_zero_iff.mp fits
    cases slot
    refine ⟨[], .refl _, ?_⟩
    rw [uses_eq] at unused
    simp only [withBlocks, withSlot]
    rw [uses_eq]
    simp_all [children, List.flatMap_map]
  | _ => cases slot

end Stmt

end ProbeWeave.Syntax
