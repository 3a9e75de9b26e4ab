import Mathlib.Data.Finset.Card
import Mathlib.Data.List.Dedup
import ProbeWeave.Graph.Basic

/-! # What following calls visits

Following a routine leaves a list of visited routines behind that holds everything visited before
and all routines of the new nodes, and where every routine that is new has all its callees. The
bound on the length of chains is never met: along a chain of new routines fewer and fewer of the
program's routines are left.
-/

namespace ProbeWeave.Graph.CallTree

variable {callees : Routine → List Routine}

theorem mem_distinct {α : Type} [BEq α] [LawfulBEq α] {a : α} {as : List α} :
    a ∈ distinct as ↔ a ∈ as := by
  induction as with
  | nil => simp [distinct]
  | cons b bs ih =>
    simp only [distinct, List.mem_cons, List.mem_filter, ih, bne_iff_ne]
    by_cases same : a = b <;> simp [same]

theorem nodup_distinct {α : Type} [BEq α] [LawfulBEq α] (as : List α) :
    (distinct as).Nodup := by
  induction as with
  | nil => exact List.nodup_nil
  | cons a rest ih =>
    exact List.nodup_cons.mpr ⟨by simp, ih.filter _⟩

/-- The routines of the nodes at and below several ones, with repetitions. -/
def occurrences (trees : List CallTree) : List Routine :=
  (walkAll trees).map routine

@[simp] theorem occurrences_nil : occurrences [] = [] := rfl

theorem occurrences_node (r : Routine) (children : List CallTree) :
    occurrences [node r children] = r :: occurrences children := by
  simp [occurrences, walkAll, walk, routine]

theorem occurrences_cons (t : CallTree) (ts : List CallTree) :
    occurrences (t :: ts) = occurrences [t] ++ occurrences ts := by
  simp [occurrences, walkAll]

theorem occurrences_leaves (rs : List Routine) :
    occurrences (rs.map fun r => node r []) = rs := by
  induction rs with
  | nil => rfl
  | cons r rest ih =>
    rw [List.map_cons, occurrences_cons, ih, occurrences_node]
    rfl

theorem mem_routines {t : CallTree} {r : Routine} : r ∈ t.routines ↔ r ∈ occurrences [t] := by
  simp [routines, occurrences, walkAll, mem_distinct]

/-- The routine of a tree occurs in it. -/
theorem routine_mem_occurrences {t : CallTree} {ts : List CallTree} (member : t ∈ ts) :
    t.routine ∈ occurrences ts := by
  induction ts with
  | nil => cases member
  | cons first rest ih =>
    rw [occurrences_cons]
    rcases List.mem_cons.mp member with rfl | member
    · obtain ⟨r, children⟩ := t
      simp [occurrences_node, routine]
    · exact List.mem_append_right _ (ih member)

/-- What a search does to the routines visited: it keeps them, adds the routines of its nodes and
nothing else, and does not stop before the callees of a routine that it adds. -/
structure Explores (callees : Routine → List Routine) (before nodes after : List Routine) :
    Prop where
  keeps : before ⊆ after
  adds : nodes ⊆ after
  only : ∀ r ∈ after, r ∈ before ∨ r ∈ nodes
  complete : ∀ r ∈ after, r ∉ before → callees r ⊆ after

theorem Explores.nothing (visited : List Routine) : Explores callees visited [] visited where
  keeps := List.Subset.refl _
  adds := List.nil_subset _
  only _ member := .inl member
  complete _ member new := (new member).elim

theorem Explores.visitedAgain {visited : List Routine} {r : Routine} (member : r ∈ visited) :
    Explores callees visited [r] visited where
  keeps := List.Subset.refl _
  adds := by simpa using member
  only _ member := .inl member
  complete _ member new := (new member).elim

/-- One search after the other explores the nodes of both. -/
theorem Explores.append {before middle after first second : List Routine}
    (one : Explores callees before first middle) (two : Explores callees middle second after) :
    Explores callees before (first ++ second) after where
  keeps := List.Subset.trans one.keeps two.keeps
  adds := List.append_subset.mpr ⟨List.Subset.trans one.adds two.keeps, two.adds⟩
  only r member := by
    rcases two.only r member with middle | new
    · exact (one.only r middle).imp id (List.mem_append_left _)
    · exact .inr (List.mem_append_right _ new)
  complete r member new := by
    by_cases inMiddle : r ∈ middle
    · exact List.Subset.trans (one.complete r inMiddle new) two.keeps
    · exact two.complete r member inMiddle

/-- A routine is explored once its callees are. -/
theorem Explores.node {visited nodes after : List Routine} {r : Routine}
    (below : Explores callees (r :: visited) nodes after) (children : callees r ⊆ nodes) :
    Explores callees visited (r :: nodes) after where
  keeps := List.Subset.trans (List.subset_cons_self r visited) below.keeps
  adds := List.cons_subset.mpr ⟨below.keeps List.mem_cons_self, below.adds⟩
  only x member := by
    rcases below.only x member with old | new
    · rcases List.mem_cons.mp old with rfl | old
      · exact .inr List.mem_cons_self
      · exact .inl old
    · exact .inr (List.mem_cons_of_mem _ new)
  complete x member new := by
    by_cases same : x = r
    · subst same
      exact List.Subset.trans children below.adds
    · exact below.complete x member (by simp [same, new])

section Room

variable {all : List Routine}

/-- How many of some routines were not visited yet. -/
def room (all visited : List Routine) : ℕ :=
  (all.toFinset \ visited.toFinset).card

/-- A new routine leaves less room. -/
theorem room_cons_lt {visited : List Routine} {r : Routine} (member : r ∈ all)
    (new : r ∉ visited) : room all (r :: visited) < room all visited := by
  apply Finset.card_lt_card
  rw [Finset.ssubset_iff_of_subset]
  · refine ⟨r, ?_, ?_⟩
    · simp [member, new]
    · simp
  · intro x inRoom
    simp only [Finset.mem_sdiff, List.mem_toFinset, List.mem_cons, not_or] at inRoom ⊢
    exact ⟨inRoom.1, inRoom.2.2⟩

theorem room_le_of_subset {before after : List Routine} (keeps : before ⊆ after) :
    room all after ≤ room all before := by
  apply Finset.card_le_card
  intro x inRoom
  simp only [Finset.mem_sdiff, List.mem_toFinset] at inRoom ⊢
  exact ⟨inRoom.1, fun old => inRoom.2 (keeps old)⟩

/-- Without room every routine was visited. -/
theorem mem_of_room_eq_zero {visited : List Routine} {r : Routine} (member : r ∈ all)
    (full : room all visited = 0) : r ∈ visited := by
  by_contra new
  exact absurd (room_cons_lt member new) (by omega)

theorem room_nil_le : room all [] ≤ all.length := by
  simpa [room] using List.toFinset_card_le all

end Room

section Follow

variable {all : List Routine}

theorem follow_root (bound : Nat) (visited : List Routine) (r : Routine) :
    (follow callees bound visited r).1.routine = r := by
  cases bound with
  | zero => rfl
  | succ bound =>
    rw [follow]
    split <;> rfl

theorem followEach_roots (bound : Nat) (visited rs : List Routine) :
    (followEach (follow callees bound) visited rs).1.map routine = rs := by
  induction rs generalizing visited with
  | nil => rfl
  | cons r rest ih => simp only [followEach, List.map_cons, follow_root, ih]

/-- Following routines one after the other explores, if following each of them does. -/
theorem followEach_explores {follow : List Routine → Routine → CallTree × List Routine}
    {limit : ℕ} (each : ∀ visited r, r ∈ all → room all visited ≤ limit →
      Explores callees visited (occurrences [(follow visited r).1]) (follow visited r).2)
    {rs : List Routine} (inside : rs ⊆ all) (visited : List Routine)
    (enough : room all visited ≤ limit) :
    Explores callees visited (occurrences (followEach follow visited rs).1)
      (followEach follow visited rs).2 := by
  induction rs generalizing visited with
  | nil => exact .nothing visited
  | cons r rest ih =>
    obtain ⟨member, others⟩ := List.cons_subset.mp inside
    have first := each visited r member enough
    have later := ih others _ ((room_le_of_subset first.keeps).trans enough)
    rw [followEach, occurrences_cons]
    exact first.append later

/-- Following a routine explores what is below it, if the bound leaves room for all that is new. -/
theorem follow_explores (closed : ∀ r ∈ all, callees r ⊆ all) {bound : Nat}
    {visited : List Routine} {r : Routine} (member : r ∈ all) (enough : room all visited ≤ bound) :
    Explores callees visited (occurrences [(follow callees bound visited r).1])
      (follow callees bound visited r).2 := by
  induction bound generalizing visited r with
  | zero =>
    rw [follow, occurrences_node]
    exact .visitedAgain (mem_of_room_eq_zero member (by omega))
  | succ bound ih =>
    rw [follow]
    split
    · rename_i old
      rw [occurrences_node]
      exact .visitedAgain (by simpa using old)
    · rename_i new
      have new : r ∉ visited := by simpa using new
      have less := room_cons_lt member new
      have below := followEach_explores (fun visited r member enough => ih member enough)
        (closed r member) (r :: visited) (by omega)
      rw [occurrences_node]
      refine below.node fun t called => ?_
      rw [← followEach_roots bound (r :: visited) (callees r)] at called
      obtain ⟨tree, child, rfl⟩ := List.mem_map.mp called
      exact routine_mem_occurrences child

/-- Following never leaves a set that has the callees of each of its routines. -/
theorem follow_inside {S : Set Routine} (closed : ∀ r ∈ S, ∀ t ∈ callees r, t ∈ S) (bound : Nat)
    (visited : List Routine) {r : Routine} (member : r ∈ S) :
    ∀ x ∈ occurrences [(follow callees bound visited r).1], x ∈ S := by
  induction bound generalizing visited r with
  | zero => simpa [follow, occurrences_node] using member
  | succ bound ih =>
    have each (visited rs : List Routine) (inside : ∀ x ∈ rs, x ∈ S) :
        ∀ x ∈ occurrences (followEach (follow callees bound) visited rs).1, x ∈ S := by
      induction rs generalizing visited with
      | nil => simp [followEach]
      | cons first rest ihRest =>
        obtain ⟨here, others⟩ := List.forall_mem_cons.mp inside
        rw [followEach, occurrences_cons]
        intro x found
        rcases List.mem_append.mp found with found | found
        · exact ih visited here x found
        · exact ihRest _ others x found
    rw [follow]
    split
    · simpa [occurrences_node] using member
    · rw [occurrences_node]
      exact List.forall_mem_cons.mpr ⟨member, each _ _ (closed r member)⟩

/-- A bound that leaves room is as good as any larger one. -/
theorem follow_succ (closed : ∀ r ∈ all, callees r ⊆ all) {bound : Nat}
    {visited : List Routine} {r : Routine} (member : r ∈ all) (enough : room all visited ≤ bound) :
    follow callees (bound + 1) visited r = follow callees bound visited r := by
  induction bound generalizing visited r with
  | zero =>
    have old := mem_of_room_eq_zero member (Nat.le_zero.mp enough)
    simp [follow, old]
  | succ bound ih =>
    rw [follow, follow]
    split
    · rfl
    · rename_i new
      have new : r ∉ visited := by simpa using new
      have less := room_cons_lt member new
      have each (rs : List Routine) (inside : rs ⊆ all) (visited : List Routine)
          (enough : room all visited ≤ bound) :
          followEach (follow callees (bound + 1)) visited rs =
            followEach (follow callees bound) visited rs := by
        induction rs generalizing visited with
        | nil => rfl
        | cons first rest ihRest =>
          obtain ⟨here, others⟩ := List.cons_subset.mp inside
          have explored := follow_explores closed here enough
          have later := ihRest others _ ((room_le_of_subset explored.keeps).trans enough)
          simp only [followEach, ih here enough, later]
      rw [each _ (closed r member) _ (by omega)]

end Follow

end ProbeWeave.Graph.CallTree
