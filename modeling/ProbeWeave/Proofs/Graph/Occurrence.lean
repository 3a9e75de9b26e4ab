import ProbeWeave.Proofs.Graph.Reach

/-! # Where routines occur in a call graph

The nodes of a graph have an order, in which the calls are followed, and each has a depth. `fresh`
keeps the first occurrence of every routine that is not known yet; a routine is known from its first
occurrence on, whatever the nodes of its later occurrences have below them.
-/

namespace ProbeWeave.Graph.CallTree

mutual

/-- The routines of a node and of the nodes below it, each with the depth of its node. -/
def depths (depth : Nat) : CallTree → List (Routine × Nat)
  | node routine children => (routine, depth) :: depthsAll (depth + 1) children

/-- The same of several nodes at one depth. -/
def depthsAll (depth : Nat) : List CallTree → List (Routine × Nat)
  | [] => []
  | t :: ts => depths depth t ++ depthsAll depth ts

end

mutual

theorem map_fst_depths (depth : Nat) :
    ∀ t : CallTree, (depths depth t).map Prod.fst = occurrences [t]
  | node r children => by
    rw [depths, List.map_cons, map_fst_depthsAll, occurrences_node]

theorem map_fst_depthsAll (depth : Nat) :
    ∀ ts : List CallTree, (depthsAll depth ts).map Prod.fst = occurrences ts
  | [] => by rw [depthsAll]; rfl
  | t :: ts => by
    rw [depthsAll, List.map_append, map_fst_depths, map_fst_depthsAll, ← occurrences_cons]

end

/-- The depth at which a routine occurs first, that of the root being zero. -/
def firstDepth? (graph : CallTree) (r : Routine) : Option Nat :=
  (depths 0 graph).lookup r

theorem walkAll_append (ts us : List CallTree) : walkAll (ts ++ us) = walkAll ts ++ walkAll us := by
  induction ts with
  | nil => rw [walkAll]; rfl
  | cons t rest ih => rw [List.cons_append, walkAll, walkAll, ih, List.append_assoc]

/-! ### The walk with a stack -/

/-- The walk that keeps the nodes it has still to visit on a stack. -/
def walkStack : List CallTree → List CallTree
  | [] => []
  | node r children :: stack => node r children :: walkStack (children ++ stack)
termination_by stack => (walkAll stack).length
decreasing_by simp [walkAll, walkAll_append, walk]

theorem walkStack_eq (stack : List CallTree) : walkStack stack = walkAll stack := by
  induction stack using walkStack.induct with
  | case1 => rw [walkStack, walkAll]
  | case2 r children stack ih => rw [walkStack, ih, walkAll_append, walkAll, walk, List.cons_append]

/-- Walking from one node after the other visits what walking from all does. -/
theorem flatMap_walkStack (ts : List CallTree) :
    (ts.flatMap fun t => walkStack [t]) = walkAll ts := by
  induction ts with
  | nil => rw [walkAll]; rfl
  | cons t rest ih =>
    rw [List.flatMap_cons, ih, walkStack_eq, walkAll, walkAll, walkAll, List.append_nil]

/-! ### First occurrences -/

/-- The occurrences of routines that are not known, each only where it comes first. -/
def fresh (known : List Routine) : List (Routine × Nat) → List (Routine × Nat)
  | [] => []
  | x :: rest =>
    if x.1 ∈ known then fresh known rest else x :: fresh (x.1 :: known) rest

/-- The routines that are known behind some occurrences. -/
def knownBehind (known : List Routine) (xs : List (Routine × Nat)) : List Routine :=
  ((fresh known xs).map Prod.fst).reverse ++ known

section Fresh

variable {known : List Routine} {x : Routine × Nat} {xs ys : List (Routine × Nat)}

theorem fresh_of_known (old : x.1 ∈ known) : fresh known (x :: xs) = fresh known xs := by
  rw [fresh, if_pos old]

theorem fresh_of_new (new : x.1 ∉ known) :
    fresh known (x :: xs) = x :: fresh (x.1 :: known) xs := by
  rw [fresh, if_neg new]

theorem knownBehind_of_known (old : x.1 ∈ known) :
    knownBehind known (x :: xs) = knownBehind known xs := by
  rw [knownBehind, fresh_of_known old, knownBehind]

theorem knownBehind_of_new (new : x.1 ∉ known) :
    knownBehind known (x :: xs) = knownBehind (x.1 :: known) xs := by
  rw [knownBehind, fresh_of_new new, knownBehind]
  simp

theorem fresh_append :
    fresh known (xs ++ ys) = fresh known xs ++ fresh (knownBehind known xs) ys := by
  induction xs generalizing known with
  | nil => rfl
  | cons x rest ih =>
    rw [List.cons_append]
    by_cases old : x.1 ∈ known
    · rw [fresh_of_known old, fresh_of_known old, knownBehind_of_known old, ih]
    · rw [fresh_of_new old, fresh_of_new old, knownBehind_of_new old, ih, List.cons_append]

theorem knownBehind_append :
    knownBehind known (xs ++ ys) = knownBehind (knownBehind known xs) ys := by
  rw [knownBehind, fresh_append, List.map_append, List.reverse_append, List.append_assoc]
  rfl

/-- The routines of the first occurrences are the distinct ones that are not known. -/
theorem map_fst_fresh (known : List Routine) (xs : List (Routine × Nat)) :
    (fresh known xs).map Prod.fst = (distinct (xs.map Prod.fst)).filter (· ∉ known) := by
  induction xs generalizing known with
  | nil => rfl
  | cons x rest ih =>
    rw [List.map_cons, distinct]
    by_cases old : x.1 ∈ known
    · rw [fresh_of_known old, ih, List.filter_cons_of_neg (by simpa using old), List.filter_filter]
      refine List.filter_congr fun r _ => ?_
      by_cases same : r = x.1
      · simp [same, old]
      · simp [same]
    · rw [fresh_of_new old, List.map_cons, ih, List.filter_cons_of_pos (by simpa using old),
        List.filter_filter]
      congr 1
      refine List.filter_congr fun r _ => ?_
      by_cases same : r = x.1 <;> simp [same]

/-- Every routine is known behind its occurrences. -/
theorem mem_knownBehind {r : Routine} :
    r ∈ knownBehind known xs ↔ r ∈ known ∨ r ∈ xs.map Prod.fst := by
  rw [knownBehind, List.mem_append, List.mem_reverse, map_fst_fresh, List.mem_filter, mem_distinct]
  by_cases old : r ∈ known <;> simp [old]

theorem nodup_fresh (known : List Routine) (xs : List (Routine × Nat)) :
    ((fresh known xs).map Prod.fst).Nodup := by
  rw [map_fst_fresh]
  exact (nodup_distinct _).filter _

/-- A first occurrence is what looking up its routine finds. -/
theorem lookup_of_mem_fresh (member : x ∈ fresh known xs) : xs.lookup x.1 = some x.2 := by
  induction xs generalizing known with
  | nil => cases member
  | cons y rest ih =>
    by_cases old : y.1 ∈ known
    · rw [fresh_of_known old] at member
      have other : x.1 ≠ y.1 := by
        rintro same
        have new := List.mem_map_of_mem (f := Prod.fst) member
        rw [map_fst_fresh, List.mem_filter, same] at new
        simp [old] at new
      rw [List.lookup_cons, beq_eq_false_iff_ne.mpr other]
      exact ih member
    · rw [fresh_of_new old] at member
      rcases List.mem_cons.mp member with rfl | member
      · rw [List.lookup_cons, beq_self_eq_true]
      · have other : x.1 ≠ y.1 := by
          rintro same
          have new := List.mem_map_of_mem (f := Prod.fst) member
          rw [map_fst_fresh, List.mem_filter, same] at new
          simp at new
        rw [List.lookup_cons, beq_eq_false_iff_ne.mpr other]
        exact ih member

end Fresh

/-! ### Nodes among others -/

/-- A node at or below some nodes: the routines of the nodes in front of it, and its depth below
them. -/
inductive Stands : List CallTree → List Routine → Nat → CallTree → Prop
  | here {left right : List CallTree} {t : CallTree} :
      Stands (left ++ t :: right) (occurrences left) 0 t
  | under {left right : List CallTree} {t : CallTree} {before : List Routine} {depth : Nat}
      {node : CallTree} (inner : Stands t.children before depth node) :
      Stands (left ++ t :: right) (occurrences left ++ t.routine :: before) (depth + 1) node

theorem occurrences_append (ts us : List CallTree) :
    occurrences (ts ++ us) = occurrences ts ++ occurrences us := by
  rw [occurrences, walkAll_append, List.map_append]
  rfl

theorem depthsAll_append (depth : Nat) (ts us : List CallTree) :
    depthsAll depth (ts ++ us) = depthsAll depth ts ++ depthsAll depth us := by
  induction ts with
  | nil => rw [depthsAll]; rfl
  | cons t rest ih => rw [List.cons_append, depthsAll, depthsAll, ih, List.append_assoc]

/-- The occurrences in a tree are that of its root and those below it. -/
theorem occurrences_eq (t : CallTree) : occurrences [t] = t.routine :: occurrences t.children := by
  cases t
  exact occurrences_node _ _

namespace Stands

variable {ts : List CallTree} {before : List Routine} {depth : Nat} {node : CallTree}

/-- Nodes behind others change nothing. -/
theorem append (stands : Stands ts before depth node) (us : List CallTree) :
    Stands (ts ++ us) before depth node := by
  cases stands with
  | here =>
    rw [List.append_assoc]
    exact .here
  | under inner =>
    rw [List.append_assoc]
    exact .under inner

/-- A node at or below a single one. -/
theorem of_singleton {t : CallTree} (stands : Stands [t] before depth node) :
    (before = [] ∧ depth = 0 ∧ node = t) ∨
      ∃ inside deep, before = t.routine :: inside ∧ depth = deep + 1 ∧
        Stands t.children inside deep node := by
  generalize single : [t] = ts at stands
  cases stands with
  | @here left right =>
    obtain ⟨rfl, same⟩ | ⟨-, none⟩ := List.singleton_eq_append_iff.mp single
    · cases same
      exact .inl ⟨rfl, rfl, rfl⟩
    · cases none
  | @under left right _ _ _ _ inner =>
    obtain ⟨rfl, same⟩ | ⟨-, none⟩ := List.singleton_eq_append_iff.mp single
    · cases same
      exact .inr ⟨_, _, rfl, rfl, inner⟩
    · cases none

/-- One more tree in front. -/
theorem cons (stands : Stands ts before depth node) (t : CallTree) :
    Stands (t :: ts) (occurrences [t] ++ before) depth node := by
  cases stands with
  | @here left right =>
    rw [← occurrences_cons]
    exact @here (t :: left) right node
  | @under left right _ _ _ _ inner =>
    rw [← List.append_assoc, ← occurrences_cons]
    exact @under (t :: left) right _ _ _ _ inner

/-- The node divides the occurrences at its place. -/
theorem exists_depthsAll (stands : Stands ts before depth node) (base : Nat) :
    ∃ front back, depthsAll base ts = front ++ (node.routine, base + depth) :: back ∧
      front.map Prod.fst = before := by
  induction stands generalizing base with
  | @here left right t =>
    cases t with
    | node r children =>
      refine ⟨depthsAll base left, depthsAll (base + 1) children ++ depthsAll base right, ?_,
        map_fst_depthsAll _ _⟩
      rw [depthsAll_append, depthsAll, depths]
      rfl
  | @under left right t _ depth _ _ ih =>
    cases t with
    | node r inner =>
      obtain ⟨front, back, divided, same⟩ := ih (base + 1)
      rw [children] at divided
      refine ⟨depthsAll base left ++ (r, base) :: front, back ++ depthsAll base right, ?_, ?_⟩
      · rw [depthsAll_append, depthsAll, depths, divided, Nat.add_right_comm, Nat.add_assoc base]
        simp
      · rw [List.map_append, List.map_cons, map_fst_depthsAll, same]
        rfl

/-- What occurs at or below the node occurs among the nodes that it stands among. -/
theorem subset (stands : Stands ts before depth node) : occurrences [node] ⊆ occurrences ts := by
  induction stands with
  | @here left right t =>
    rw [occurrences_append, occurrences_cons t right]
    exact List.subset_append_of_subset_right _ (List.subset_append_left _ _)
  | @under left right t _ _ _ _ ih =>
    rw [occurrences_append, occurrences_cons t right, occurrences_eq t]
    exact List.subset_append_of_subset_right _
      (List.subset_append_of_subset_left _ (List.subset_cons_of_subset _ ih))

/-- Where a routine occurs first is its first depth. -/
theorem firstDepth? {graph : CallTree} (stands : Stands [graph] before depth node)
    (first : node.routine ∉ before) : graph.firstDepth? node.routine = some depth := by
  obtain ⟨front, back, divided, rfl⟩ := stands.exists_depthsAll 0
  rw [depthsAll, depthsAll, List.append_nil, Nat.zero_add] at divided
  rw [CallTree.firstDepth?, divided, List.lookup_append]
  have absent : front.lookup node.routine = none := by
    refine List.lookup_eq_none_iff.mpr fun x member => ?_
    rw [bne_iff_ne]
    intro same
    exact first (same ▸ List.mem_map_of_mem member)
  rw [absent]
  simp

end Stands

mutual

theorem exists_stands_tree {r : Routine} :
    ∀ t : CallTree, r ∈ occurrences [t] → ∃ before depth node,
      Stands [t] before depth node ∧ node.routine = r ∧ r ∉ before
  | node own children => by
    intro occurs
    by_cases same : own = r
    · exact ⟨[], 0, node own children, @Stands.here [] [] _, same, List.not_mem_nil⟩
    · rw [occurrences_node, List.mem_cons] at occurs
      obtain ⟨before, depth, n, stands, found, new⟩ :=
        exists_stands children (occurs.resolve_left (Ne.symm same))
      refine ⟨own :: before, depth + 1, n, @Stands.under [] [] (node own children) _ _ _ stands,
        found, ?_⟩
      rw [List.mem_cons, not_or]
      exact ⟨Ne.symm same, new⟩

/-- Every routine has a node at which it occurs first. -/
theorem exists_stands {r : Routine} :
    ∀ ts : List CallTree, r ∈ occurrences ts → ∃ before depth node,
      Stands ts before depth node ∧ node.routine = r ∧ r ∉ before
  | [] => by
    intro occurs
    cases occurs
  | t :: ts => by
    intro occurs
    by_cases first : r ∈ occurrences [t]
    · obtain ⟨before, depth, n, stands, found, new⟩ := exists_stands_tree t first
      exact ⟨before, depth, n, stands.append ts, found, new⟩
    · rw [occurrences_cons, List.mem_append] at occurs
      obtain ⟨before, depth, n, stands, found, new⟩ :=
        exists_stands ts (occurs.resolve_left first)
      refine ⟨occurrences [t] ++ before, depth, n, stands.cons t, found, ?_⟩
      rw [List.mem_append, not_or]
      exact ⟨first, new⟩

end

end ProbeWeave.Graph.CallTree
