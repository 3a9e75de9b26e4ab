import Mathlib.Data.List.Lex
import ProbeWeave.Proofs.Graph.Occurrence
import ProbeWeave.Proofs.Probe.Names
import ProbeWeave.Syntax.Token
import ProbeWeave.Text.Identifier

/-! # How probes are numbered

A node of a call graph has an address: the numbers of the children that lead to it. Addresses are
ordered as words are, and this is the order in which a graph is walked. The routines with a probe are
those with an address below the root, and their numbers follow their first addresses. Whatever loops
get probes later, the names stay as they are, are identifiers, and differ.
-/

namespace ProbeWeave.Graph.CallTree

/-! ### Addresses -/

/-- The node at an address. -/
def at? : CallTree → List Nat → Option CallTree
  | t, [] => some t
  | t, i :: rest => t.children[i]?.bind fun child => child.at? rest

mutual

/-- A node and everything below it, each with its address, as they are walked. -/
def addressed : CallTree → List (List Nat × CallTree)
  | node r children => ([], node r children) :: addressedAll 0 children

/-- The same of the children of a node from a certain one on, with their addresses from that node. -/
def addressedAll (i : Nat) : List CallTree → List (List Nat × CallTree)
  | [] => []
  | t :: ts => (addressed t).map (fun x => (i :: x.1, x.2)) ++ addressedAll (i + 1) ts

end

mutual

theorem map_snd_addressed : ∀ t : CallTree, (addressed t).map Prod.snd = walk t
  | node r children => by
    rw [addressed, List.map_cons, map_snd_addressedAll, walk]

theorem map_snd_addressedAll (i : Nat) :
    ∀ ts : List CallTree, (addressedAll i ts).map Prod.snd = walkAll ts
  | [] => by rw [addressedAll, walkAll, List.map_nil]
  | t :: ts => by
    rw [addressedAll, List.map_append, List.map_map, map_snd_addressedAll, walkAll,
      ← map_snd_addressed t]
    rfl

end

mutual

theorem mem_addressed {p : List Nat} {n : CallTree} :
    ∀ t : CallTree, (p, n) ∈ addressed t ↔ t.at? p = some n
  | node r children => by
    rw [addressed, List.mem_cons, mem_addressedAll]
    cases p with
    | nil => simp [at?, eq_comm]
    | cons i rest => simp [at?, CallTree.children, Option.bind_eq_some_iff]

/-- The children are numbered on from the first of them. -/
theorem mem_addressedAll {i : Nat} {p : List Nat} {n : CallTree} :
    ∀ ts : List CallTree, (p, n) ∈ addressedAll i ts ↔
      ∃ j rest t, p = (i + j) :: rest ∧ ts[j]? = some t ∧ t.at? rest = some n
  | [] => by simp [addressedAll]
  | t :: ts => by
    rw [addressedAll, List.mem_append, List.mem_map, mem_addressedAll]
    constructor
    · rintro (⟨⟨rest, m⟩, member, same⟩ | ⟨j, rest, u, rfl, found, deep⟩)
      · cases same
        exact ⟨0, rest, t, rfl, rfl, (mem_addressed t).mp member⟩
      · exact ⟨j + 1, rest, u, by rw [Nat.add_right_comm, Nat.add_assoc], found, deep⟩
    · rintro ⟨j, rest, u, rfl, found, deep⟩
      cases j with
      | zero =>
        cases found
        exact .inl ⟨(rest, n), (mem_addressed t).mpr deep, rfl⟩
      | succ j => exact .inr ⟨j, rest, u, by rw [Nat.add_right_comm, Nat.add_assoc], found, deep⟩

end

mutual

theorem pairwise_addressed : ∀ t : CallTree, (addressed t).Pairwise fun x y => x.1 < y.1
  | node r children => by
    refine List.pairwise_cons.mpr ⟨fun x member => ?_, pairwise_addressedAll 0 children⟩
    obtain ⟨j, rest, -, same, -⟩ := (mem_addressedAll children).mp member
    rw [same]
    exact List.nil_lt_cons _ _

/-- Walking is in the order of the addresses. -/
theorem pairwise_addressedAll (i : Nat) :
    ∀ ts : List CallTree, (addressedAll i ts).Pairwise fun x y => x.1 < y.1
  | [] => by
    rw [addressedAll]
    exact .nil
  | t :: ts => by
    rw [addressedAll]
    refine List.pairwise_append.mpr ⟨?_, pairwise_addressedAll (i + 1) ts, ?_⟩
    · refine (pairwise_addressed t).map _ fun x y before => ?_
      exact List.cons_lt_cons_iff.mpr (.inr ⟨rfl, before⟩)
    · rintro x first y second
      obtain ⟨x, -, rfl⟩ := List.mem_map.mp first
      obtain ⟨j, rest, -, same, -⟩ := (mem_addressedAll ts).mp second
      rw [same]
      exact List.cons_lt_cons_iff.mpr (.inl (by omega))

end

/-- The nodes below the root are those at the other addresses. -/
theorem mem_addressedAll_children {root n : CallTree} {p : List Nat} :
    (p, n) ∈ addressedAll 0 root.children ↔ p ≠ [] ∧ root.at? p = some n := by
  rw [mem_addressedAll]
  cases p with
  | nil => simp
  | cons i rest => simp [at?, Option.bind_eq_some_iff]

/-- The first address below the root at which a routine is. -/
structure FirstBelow (root : CallTree) (r : Routine) (p : List Nat) : Prop where
  below : p ≠ []
  found : (root.at? p).map routine = some r
  least : ∀ q, q ≠ [] → (root.at? q).map routine = some r → p ≤ q

/-! ### What is kept of a walk -/

section First

variable {α β : Type} {f : α → β} {before : α → α → Prop} {xs : List α} {x : α} {b : β}

/-- An element of a list with a certain value, in front of all others with it. -/
def First (f : α → β) (before : α → α → Prop) (xs : List α) (b : β) (x : α) : Prop :=
  x ∈ xs ∧ f x = b ∧ ∀ y ∈ xs, f y = b → y = x ∨ before x y

theorem First.cons (first : First f before xs b x) {y : α} (other : f y ≠ b) :
    First f before (y :: xs) b x := by
  obtain ⟨member, same, least⟩ := first
  refine ⟨List.mem_cons_of_mem _ member, same, fun z member value => ?_⟩
  rcases List.mem_cons.mp member with rfl | member
  · exact absurd value other
  · exact least z member value

theorem first_cons (ordered : (x :: xs).Pairwise before) : First f before (x :: xs) (f x) x := by
  refine ⟨List.mem_cons_self, rfl, fun y member _ => ?_⟩
  exact (List.mem_cons.mp member).imp id (List.rel_of_pairwise_cons ordered)

theorem exists_first (ordered : xs.Pairwise before) (member : b ∈ xs.map f) :
    ∃ x, First f before xs b x := by
  induction xs with
  | nil => cases member
  | cons y rest ih =>
    by_cases same : f y = b
    · exact ⟨y, same ▸ first_cons ordered⟩
    · have later : b ∈ rest.map f := (List.mem_cons.mp member).resolve_left (Ne.symm same)
      obtain ⟨x, first⟩ := ih ordered.of_cons later
      exact ⟨x, first.cons same⟩

/-- Values without repetitions are in the order of their first elements. -/
theorem pairwise_distinct_map [BEq β] [LawfulBEq β] (ordered : xs.Pairwise before) :
    (distinct (xs.map f)).Pairwise fun a b =>
      ∃ x y, First f before xs a x ∧ First f before xs b y ∧ before x y := by
  induction xs with
  | nil => exact .nil
  | cons x rest ih =>
    have other {b : β} (kept : b ∈ (distinct (rest.map f)).filter (· != f x)) : f x ≠ b := fun same =>
      bne_iff_ne.mp (List.mem_filter.mp kept).2 same.symm
    rw [List.map_cons, distinct]
    refine List.pairwise_cons.mpr ⟨fun b kept => ?_, ?_⟩
    · have occurs : b ∈ rest.map f := mem_distinct.mp (List.mem_filter.mp kept).1
      obtain ⟨y, first⟩ := exists_first ordered.of_cons occurs
      exact ⟨x, y, first_cons ordered, first.cons (other kept),
        List.rel_of_pairwise_cons ordered first.1⟩
    · refine ((ih ordered.of_cons).filter _).imp_of_mem ?_
      rintro a b keptA keptB ⟨y, z, firstA, firstB, before⟩
      exact ⟨y, z, firstA.cons (other keptA), firstB.cons (other keptB), before⟩

end First

/-- What comes behind other elements is kept if it is not among them. -/
theorem distinct_append {α : Type} [BEq α] [LawfulBEq α] (as bs : List α) :
    distinct (as ++ bs) = distinct as ++ (distinct bs).filter (!as.contains ·) := by
  induction as with
  | nil => simp [distinct]
  | cons a rest ih =>
    rw [List.cons_append, distinct, ih, List.filter_append, List.filter_filter, distinct,
      List.cons_append]
    congr 2
    refine List.filter_congr fun b _ => ?_
    rw [List.contains_cons, Bool.not_or]
    rfl

/-- A first node below the root has a first address. -/
theorem firstBelow_of_first {root : CallTree} {r : Routine} {x : List Nat × CallTree}
    (first : First (fun x : List Nat × CallTree => x.2.routine) (fun x y => x.1 < y.1)
      (addressedAll 0 root.children) r x) : root.FirstBelow r x.1 := by
  obtain ⟨p, n⟩ := x
  obtain ⟨member, same, least⟩ := first
  obtain ⟨below, found⟩ := mem_addressedAll_children.mp member
  refine ⟨below, found ▸ congrArg some same, fun q other there => ?_⟩
  obtain ⟨m, at_q, value⟩ := Option.map_eq_some_iff.mp there
  rcases least (q, m) (mem_addressedAll_children.mpr ⟨other, at_q⟩) value with equal | before
  · cases equal
    exact le_rfl
  · exact le_of_lt before

end ProbeWeave.Graph.CallTree

namespace ProbeWeave.Probe

open Graph

/-! ### Identifiers -/

/-- The characters of a probe's name are of ASCII, and an identifier may go on with them. -/
theorem continues_of_isProbeChar {c : Char} (kept : isProbeChar c = true) :
    c.val < 128 ∧ Text.isIdentifierContinue c = true := by
  have ascii : c.val < 128 := by
    have below {last : UInt32} (bound : c.val ≤ last) (small : last < 128) : c.val < 128 :=
      UInt32.lt_of_le_of_lt bound small
    rcases Bool.or_eq_true_iff.mp kept with alphanumeric | underscore
    · rcases Bool.or_eq_true_iff.mp alphanumeric with letter | digit
      · rcases Bool.or_eq_true_iff.mp letter with upper | lower
        · exact below (of_decide_eq_true upper).2 (by decide)
        · exact below (of_decide_eq_true (Bool.and_eq_true_iff.mp lower).2) (by decide)
      · exact below (of_decide_eq_true (Bool.and_eq_true_iff.mp digit).2) (by decide)
    · rw [beq_iff_eq.mp underscore]
      decide
  exact ⟨ascii, by rwa [Text.isIdentifierContinue, if_pos ascii]⟩

/-- A name that can be declared: an identifier of ASCII that is no reserved word. -/
structure Declarable (name : String) : Prop where
  ascii : ∀ c ∈ name.toList, c.val < 128
  identifier : Text.isIdentifier name = true
  free : name ∉ Syntax.reservedWords

theorem no_digit_reserved : ∀ w ∈ Syntax.reservedWords, w.toList.any Char.isDigit = false := by
  decide

/-- A number behind a word makes a name that can be declared. -/
theorem declarable_numberedName {stem : String} {c : Char} {rest : List Char}
    (begins : stem.toList = c :: rest) (letter : c.isAlpha = true)
    (word : stem.toList.all isProbeChar = true) (n : Nat) (r : Routine) :
    Declarable (numberedName stem n r) := by
  have word := List.all_eq_true.mp word
  have digits : ∀ d ∈ Nat.toDigits 10 n, d.isDigit = true := fun d member =>
    Nat.isDigit_of_mem_toDigits (by decide) (by decide) member
  have kept : ∀ d ∈ (numberedName stem n r).toList, isProbeChar d = true := by
    intro d member
    rw [toList_numberedName, List.mem_append, List.mem_append, List.mem_cons] at member
    rcases member with inWord | digit | rfl | inName
    · exact word d inWord
    · rw [isProbeChar, Char.isAlphanum, digits d digit, Bool.or_true, Bool.true_or]
    · decide
    · rw [sanitize, String.toList_ofList] at inName
      exact (List.mem_filter.mp inName).2
  refine ⟨fun d member => (continues_of_isProbeChar (kept d member)).1, ?_, fun reserved => ?_⟩
  · have first := (continues_of_isProbeChar (word c (begins ▸ List.mem_cons_self))).1
    rw [toList_numberedName, begins] at kept
    rw [Text.isIdentifier, toList_numberedName, begins, List.cons_append, Text.isIdentifierChars,
      Text.isIdentifierStart, if_pos first, letter, Bool.true_or, Bool.true_and, List.all_eq_true]
    exact fun d member => (continues_of_isProbeChar (kept d (List.mem_cons_of_mem _ member))).2
  · obtain ⟨d, member⟩ := List.exists_mem_of_ne_nil _ (Nat.toDigits_ne_nil (b := 10) (n := n))
    have inside : d ∈ (numberedName stem n r).toList := by
      rw [toList_numberedName]
      exact List.mem_append_right _ (List.mem_append_left _ member)
    exact List.any_eq_false.mp (no_digit_reserved _ reserved) d inside (digits d member)

namespace Registry

theorem Ordered.declarable {registry : Registry} (ordered : registry.Ordered) {name : String}
    (member : name ∈ registry.fieldNames) : Declarable name := by
  rcases List.mem_append.mp member with probe | loop
  · obtain ⟨i, found⟩ := List.mem_iff_getElem?.mp probe
    obtain ⟨r, rfl⟩ := ordered.probes i name found
    exact declarable_numberedName (c := 'p') rfl (by decide) (by decide) _ r
  · obtain ⟨i, found⟩ := List.mem_iff_getElem?.mp loop
    obtain ⟨r, rfl⟩ := ordered.loops i name found
    exact declarable_numberedName (c := 'l') rfl (by decide) (by decide) _ r

/-! ### The numbers -/

/-- Names of loops are added at the end. -/
theorem fieldNames_prefix (registry : Registry) (loops : List (Routine × Nat)) :
    registry.fieldNames <+: (registry.addLoops loops).fieldNames := by
  rw [fieldNames, fieldNames, (registry.addLoops_probes loops).1, addLoops_loops, List.map_append,
    ← List.append_assoc]
  exact List.prefix_append _ _

/-- Gives a routine the next probe, unless it has one. -/
def note (registry : Registry) (r : Routine) : Registry :=
  if r ∈ registry.probes.map RoutineProbe.routine then registry
  else { registry with probes := registry.probes ++ [routineProbe registry.probes.length r] }

/-- Routines noted one after the other are numbered where they occur first. -/
theorem foldl_note (home : Home) (rs : List Routine) :
    rs.foldl note ⟨home, [], []⟩ = ⟨home, (CallTree.distinct rs).mapIdx routineProbe, []⟩ := by
  induction rs using List.reverseRecOn with
  | nil => rfl
  | append_singleton before r ih =>
    rw [List.foldl_concat, ih, note, map_routine_mapIdx]
    have single : CallTree.distinct [r] = [r] := rfl
    rw [CallTree.distinct_append, single]
    split
    · rename_i old
      rw [CallTree.mem_distinct] at old
      rw [List.filter_cons_of_neg (by simpa using old), List.filter_nil, List.append_nil]
    · rename_i new
      rw [CallTree.mem_distinct] at new
      rw [List.filter_cons_of_pos (by simpa using new), List.filter_nil, List.mapIdx_concat,
        List.length_mapIdx]

/-- The registry of a graph is built by noting the routines that walks from the children of the root
visit, one child after the other. -/
theorem ofGraph_eq_foldl (root : CallTree) (home : Home) :
    ofGraph root home =
      (root.children.flatMap fun child => CallTree.walkStack [child]).foldl
        (fun registry node => registry.note node.routine) ⟨home, [], []⟩ := by
  rw [CallTree.flatMap_walkStack, ← List.foldl_map, foldl_note, ofGraph]

/-- The probes of a graph, built by a walk that keeps a stack for each child of the root: they are those
of the routines with an address below the root, ordered by the first of these addresses, and a number
and the letters of its routine make the name of each. Whatever loops get probes later, all names are
declarable and differ, and those that were given before stay. -/
theorem numbering (root : CallTree) (home : Home) :
    ofGraph root home =
        (root.children.flatMap fun child => CallTree.walkStack [child]).foldl
          (fun registry node => registry.note node.routine) ⟨home, [], []⟩ ∧
      (∀ r, r ∈ (ofGraph root home).probes.map RoutineProbe.routine ↔
        ∃ p, p ≠ [] ∧ (root.at? p).map CallTree.routine = some r) ∧
      ((ofGraph root home).probes.map RoutineProbe.routine).Pairwise (fun r s =>
        ∃ p q, root.FirstBelow r p ∧ root.FirstBelow s q ∧ p < q) ∧
      (∀ k p, (ofGraph root home).probes[k]? = some p →
        p.name = "probe" ++ toString (k + 1) ++ "_" ++ sanitize p.routine.name) ∧
      ∀ loops : List (Routine × Nat),
        ((ofGraph root home).addLoops loops).fieldNames.Nodup ∧
        (∀ name ∈ ((ofGraph root home).addLoops loops).fieldNames, Declarable name) ∧
        ∀ more, ((ofGraph root home).addLoops loops).fieldNames <+:
          ((ofGraph root home).addLoops (loops ++ more)).fieldNames := by
  have routines : (ofGraph root home).probes.map RoutineProbe.routine =
      CallTree.distinct ((CallTree.addressedAll 0 root.children).map fun x => x.2.routine) := by
    rw [ofGraph, map_routine_mapIdx, ← CallTree.map_snd_addressedAll 0, List.map_map]
    rfl
  refine ⟨ofGraph_eq_foldl root home, fun r => ?_, ?_, fun k p found => ?_, fun loops => ?_⟩
  · rw [routines, CallTree.mem_distinct, List.mem_map]
    constructor
    · rintro ⟨⟨p, n⟩, member, rfl⟩
      obtain ⟨below, found⟩ := CallTree.mem_addressedAll_children.mp member
      exact ⟨p, below, found ▸ rfl⟩
    · rintro ⟨p, below, found⟩
      obtain ⟨n, at_p, rfl⟩ := Option.map_eq_some_iff.mp found
      exact ⟨(p, n), CallTree.mem_addressedAll_children.mpr ⟨below, at_p⟩, rfl⟩
  · rw [routines]
    refine (CallTree.pairwise_distinct_map (CallTree.pairwise_addressedAll 0 root.children)).imp ?_
    rintro r s ⟨x, y, first, second, before⟩
    exact ⟨x.1, y.1, CallTree.firstBelow_of_first first, CallTree.firstBelow_of_first second, before⟩
  · rw [ofGraph, List.getElem?_mapIdx] at found
    obtain ⟨r, -, rfl⟩ := Option.map_eq_some_iff.mp found
    rfl
  · have ordered := (ordered_ofGraph root home).addLoops loops
    refine ⟨ordered.nodup, fun name member => ordered.declarable member, fun more => ?_⟩
    rw [addLoops_append]
    exact fieldNames_prefix _ more

end Registry

end ProbeWeave.Probe
