import Mathlib.Data.List.Perm.Subperm
import Mathlib.Logic.Relation
import ProbeWeave.Proofs.Project.Filed
import ProbeWeave.Proofs.Project.NearestFirst
import ProbeWeave.Proofs.Project.SingleModule

/-! # Python's order of classes

Python looks a method up along the linearisation of a class: the class itself, then the merge of the
linearisations of its bases and of the list of them, where the next class is always the first head
that stands in no list behind its head. Lookups of the project go by generations instead. The two
orders have the same classes, so a method is found in the one if and only if it is in the other; it
is the same method exactly if the first class that defines it is the same.
-/

set_option linter.dupNamespace false

namespace ProbeWeave.Project

open Syntax ProbeWeave.Graph Outcome Relation

namespace Project

/-! ### Merging -/

/-- Whether a class stands in no list behind its head. -/
def eligible (lists : List (List ClassInfo)) (c : ClassInfo) : Bool :=
  lists.all fun l => !l.tail.any (sameClass c)

/-- The class that comes next when lists are merged. -/
def nextHead? (lists : List (List ClassInfo)) : Option ClassInfo :=
  (lists.filterMap List.head?).find? (eligible lists)

/-- A list without its head, if this is the class. -/
def dropHead (c : ClassInfo) : List ClassInfo → List ClassInfo
  | [] => []
  | d :: rest => if sameClass c d then rest else d :: rest

/-- Whether lists are merged to a list. -/
inductive Merges : List (List ClassInfo) → List ClassInfo → Prop where
  | done {lists : List (List ClassInfo)} : (∀ l ∈ lists, l = []) → Merges lists []
  | take {lists : List (List ClassInfo)} {c : ClassInfo} {rest : List ClassInfo} :
      nextHead? lists = some c → Merges (lists.map (dropHead c)) rest → Merges lists (c :: rest)

theorem dropHead_subset (c : ClassInfo) (l : List ClassInfo) : ∀ x ∈ dropHead c l, x ∈ l := by
  cases l with
  | nil => exact fun _ member => member
  | cons d rest =>
    intro x member
    rw [dropHead] at member
    split at member
    · exact List.mem_cons_of_mem _ member
    · exact member

theorem head_of_nextHead? {lists : List (List ClassInfo)} {c : ClassInfo}
    (next : nextHead? lists = some c) : ∃ l ∈ lists, c ∈ l := by
  obtain ⟨l, inLists, head⟩ := List.mem_filterMap.mp (List.mem_of_find?_eq_some next)
  exact ⟨l, inLists, List.mem_of_mem_head? head⟩

/-- A class that is taken stands in no list any more. -/
theorem not_mem_dropHead {lists : List (List ClassInfo)} {c : ClassInfo}
    (next : nextHead? lists = some c) {l : List ClassInfo} (inLists : l ∈ lists) :
    c ∉ dropHead c l := by
  have nowhere : eligible lists c = true := List.find?_some next
  replace nowhere := List.all_eq_true.mp nowhere l inLists
  rw [Bool.not_eq_true', List.any_eq_false] at nowhere
  cases l with
  | nil => simp [dropHead]
  | cons d rest =>
    have behind : c ∉ rest := fun member => nowhere c member (sameClass_refl c)
    rw [dropHead]
    split
    · exact behind
    · rename_i other
      rintro (_ | ⟨_, member⟩)
      · exact other (sameClass_refl c)
      · exact behind member

namespace Merges

variable {lists : List (List ClassInfo)} {merged : List ClassInfo}

theorem mem_lists (merges : Merges lists merged) : ∀ x ∈ merged, ∃ l ∈ lists, x ∈ l := by
  induction merges with
  | done => exact fun _ member => nomatch member
  | take next _ ih =>
    refine List.forall_mem_cons.mpr ⟨head_of_nextHead? next, fun x member => ?_⟩
    obtain ⟨_, inMap, member⟩ := ih x member
    obtain ⟨l, inLists, rfl⟩ := List.mem_map.mp inMap
    exact ⟨l, inLists, dropHead_subset _ l x member⟩

theorem nodup (merges : Merges lists merged) : merged.Nodup := by
  induction merges with
  | done => exact List.nodup_nil
  | take next merges ih =>
    refine List.nodup_cons.mpr ⟨fun member => ?_, ih⟩
    obtain ⟨_, inMap, member⟩ := merges.mem_lists _ member
    obtain ⟨l, inLists, rfl⟩ := List.mem_map.mp inMap
    exact not_mem_dropHead next inLists member

/-- Nothing gets lost in a merge of classes that can be told apart. -/
theorem mem_merged (merges : Merges lists merged)
    (apart : ∀ l ∈ lists, ∀ l' ∈ lists, ∀ a ∈ l, ∀ b ∈ l', sameClass a b = true → a = b) :
    ∀ l ∈ lists, ∀ x ∈ l, x ∈ merged := by
  induction merges with
  | done empty => exact fun l inLists x member => by simp [empty l inLists] at member
  | @take lists c rest next _ ih =>
    intro l inLists x member
    obtain ⟨l', inLists', member'⟩ := head_of_nextHead? next
    have later : ∀ l ∈ lists.map (dropHead c), ∀ x ∈ l, x ∈ rest := by
      refine ih fun k inMap k' inMap' a inK b inK' => ?_
      obtain ⟨k, inLists, rfl⟩ := List.mem_map.mp inMap
      obtain ⟨k', inLists', rfl⟩ := List.mem_map.mp inMap'
      exact apart k inLists k' inLists' a (dropHead_subset c k a inK) b (dropHead_subset c k' b inK')
    by_cases stays : x ∈ dropHead c l
    · exact List.mem_cons_of_mem _ (later _ (List.mem_map_of_mem inLists) x stays)
    · cases l with
      | nil => cases member
      | cons d rest =>
        rw [dropHead] at stays
        split at stays
        · rename_i same
          rcases List.mem_cons.mp member with rfl | member
          · rw [apart l' inLists' _ inLists c member' x List.mem_cons_self same]
            exact List.mem_cons_self
          · exact absurd member stays
        · exact absurd member stays

/-- In a merge of orders with the classes that they begin with is what the orders have. -/
theorem mem_iff {bs : List ClassInfo} {orders : ClassInfo → List ClassInfo}
    (merges : Merges (bs.map orders ++ [bs]) merged) (self : ∀ b ∈ bs, b ∈ orders b)
    (apart : ∀ b ∈ bs, ∀ b' ∈ bs, ∀ x ∈ orders b, ∀ y ∈ orders b', sameClass x y = true → x = y)
    (x : ClassInfo) : x ∈ merged ↔ ∃ b ∈ bs, x ∈ orders b := by
  have inOrder : ∀ l ∈ bs.map orders ++ [bs], ∀ x ∈ l, ∃ b ∈ bs, x ∈ orders b := by
    intro l inLists x member
    rcases List.mem_append.mp inLists with inMap | same
    · obtain ⟨b, isBase, rfl⟩ := List.mem_map.mp inMap
      exact ⟨b, isBase, member⟩
    · rw [List.mem_singleton.mp same] at member
      exact ⟨x, member, self x member⟩
  constructor
  · intro member
    obtain ⟨l, inLists, member⟩ := merges.mem_lists x member
    exact inOrder l inLists x member
  · rintro ⟨b, isBase, member⟩
    have inLists := List.mem_append_left [bs] (List.mem_map_of_mem (f := orders) isBase)
    refine merges.mem_merged (fun l inLists l' inLists' a inL b inL' same => ?_) _ inLists x member
    obtain ⟨c, isBase, inC⟩ := inOrder l inLists a inL
    obtain ⟨c', isBase', inC'⟩ := inOrder l' inLists' b inL'
    exact apart c isBase c' isBase' a inC b inC' same

theorem eq_of_none (merges : Merges [[]] merged) : merged = [] := by
  cases merges with
  | done => rfl
  | take next => cases next

theorem eq_of_alone {l : List ClassInfo} (merges : Merges [l, []] merged) : merged = l := by
  induction l generalizing merged with
  | nil =>
    cases merges with
    | done => rfl
    | take next => cases next
  | cons c rest ih =>
    cases merges with
    | done empty => exact absurd (empty _ List.mem_cons_self) (List.cons_ne_nil c rest)
    | @take _ d _ next merges =>
      obtain rfl : d = c := by simpa [nextHead?] using List.mem_of_find?_eq_some next
      simp only [List.map_cons, List.map_nil, dropHead, sameClass_refl, if_true] at merges
      rw [ih merges]

/-- The order of a single base is taken over. -/
theorem eq_of_single {b : ClassInfo} {rest : List ClassInfo}
    (merges : Merges [b :: rest, [b]] merged) : merged = b :: rest := by
  cases merges with
  | done empty => exact absurd (empty _ List.mem_cons_self) (List.cons_ne_nil b rest)
  | @take _ d _ next merges =>
    obtain rfl : d = b := by simpa [nextHead?] using List.mem_of_find?_eq_some next
    simp only [List.map_cons, List.map_nil, dropHead, sameClass_refl, if_true] at merges
    rw [merges.eq_of_alone]

end Merges

/-! ### The linearisation of a class -/

variable {p : Project} {c : ClassInfo} {mro : List ClassInfo}

/-- The bases of a class as far as they are found. -/
def basesOrNone (p : Project) (c : ClassInfo) : List ClassInfo :=
  match p.bases c with
  | .ok bs => bs
  | .error _ => []

/--
Whether a list is the order in which Python looks methods of a class up. All its bases have to be
classes of the project, and so on for those.
-/
inductive Linearised (p : Project) : ClassInfo → List ClassInfo → Prop where
  | of {c : ClassInfo} {bs rest : List ClassInfo} (orders : ClassInfo → List ClassInfo) :
      p.bases c = .ok bs → bs.length = c.bases.length → (∀ b ∈ bs, Linearised p b (orders b)) →
      Merges (bs.map orders ++ [bs]) rest → Linearised p c (c :: rest)

namespace Linearised

theorem head? (linearised : p.Linearised c mro) : mro.head? = some c := by
  cases linearised
  rfl

theorem mem_self (linearised : p.Linearised c mro) : c ∈ mro :=
  List.mem_of_mem_head? linearised.head?

/-- A class that has a linearisation is not among its own ancestors. -/
theorem acyclic (linearised : p.Linearised c mro) :
    ¬ TransGen (fun a b => b ∈ p.basesOrNone a) c c := by
  have acc : Acc (fun b a => b ∈ p.basesOrNone a) c := by
    induction linearised with
    | of orders found _ _ _ ih =>
      refine .intro _ fun b isBase => ih b ?_
      simpa only [basesOrNone, found] using isBase
  clear linearised
  intro cycle
  induction acc with
  | intro c _ ih =>
    obtain ⟨b, isBase, back⟩ := TransGen.head'_iff.mp cycle
    exact ih b isBase (TransGen.tail' back isBase)

/-- What is known of the classes in the linearisation of a class. -/
structure Facts (p : Project) (c : ClassInfo) (mro : List ClassInfo) : Prop where
  held : ∀ x ∈ mro, p.HoldsClass x
  known : ∀ x ∈ mro, p.bases x = .ok (p.basesOrNone x)
  above : ∀ x ∈ mro, ∀ b ∈ p.basesOrNone x, b ∈ mro.tail
  inherited : ∀ x ∈ mro, ReflTransGen (fun a b => b ∈ p.basesOrNone a) c x
  distinct : mro.Nodup
  near : ∀ x ∈ mro, x ∈ nearestFirst p.basesOrNone mro.length [c]

theorem facts (linearised : p.Linearised c mro) (held : p.HoldsClass c)
    (apart : ∀ a b, p.HoldsClass a → p.HoldsClass b → sameClass a b = true → a = b) :
    Facts p c mro := by
  have acyclic := linearised.acyclic
  induction linearised with
  | @of c bs rest orders found complete each merges ih =>
    have bases : p.basesOrNone c = bs := by simp only [basesOrNone, found]
    have bsHeld := bases_keeps c bs found
    have ancestors : ∀ b ∈ bs, Facts p b (orders b) := fun b isBase =>
      ih b isBase (bsHeld b isBase) (each b isBase).acyclic
    have members := merges.mem_iff (fun b isBase => (each b isBase).mem_self)
      fun b isBase b' isBase' x inB y inB' =>
        apart x y ((ancestors b isBase).held x inB) ((ancestors b' isBase').held y inB')
    have above : ∀ x ∈ rest, ∀ b ∈ p.basesOrNone x, b ∈ rest := by
      intro x member b isBase
      obtain ⟨a, inBases, member⟩ := (members x).mp member
      exact (members b).mpr
        ⟨a, inBases, List.mem_of_mem_tail ((ancestors a inBases).above x member b isBase)⟩
    have inherited : ∀ x ∈ rest, TransGen (fun a b => b ∈ p.basesOrNone a) c x := by
      intro x member
      obtain ⟨b, isBase, member⟩ := (members x).mp member
      exact TransGen.head' (bases ▸ isBase) ((ancestors b isBase).inherited x member)
    refine ⟨?_, ?_, ?_, ?_, ?_, ?_⟩
    · refine List.forall_mem_cons.mpr ⟨held, fun x member => ?_⟩
      obtain ⟨b, isBase, member⟩ := (members x).mp member
      exact (ancestors b isBase).held x member
    · refine List.forall_mem_cons.mpr ⟨by rw [found, bases], fun x member => ?_⟩
      obtain ⟨b, isBase, member⟩ := (members x).mp member
      exact (ancestors b isBase).known x member
    · refine List.forall_mem_cons.mpr ⟨fun b isBase => ?_, above⟩
      rw [bases] at isBase
      exact (members b).mpr ⟨b, isBase, (each b isBase).mem_self⟩
    · exact List.forall_mem_cons.mpr ⟨.refl, fun x member => (inherited x member).to_reflTransGen⟩
    · exact List.nodup_cons.mpr ⟨fun member => acyclic (inherited c member), merges.nodup⟩
    · refine List.forall_mem_cons.mpr ⟨List.mem_append_left _ List.mem_cons_self, fun x member => ?_⟩
      obtain ⟨b, isBase, member⟩ := (members x).mp member
      have shorter : (orders b).length ≤ rest.length :=
        ((ancestors b isBase).distinct.subperm fun y inOrder =>
          (members y).mpr ⟨b, isBase, inOrder⟩).length_le
      refine List.mem_append_right _
        (mem_nearestFirst_mono shorter (fun y same => ?_) ((ancestors b isBase).near x member))
      rw [List.mem_singleton.mp same]
      simpa [bases] using isBase

end Linearised

end Project

end ProbeWeave.Project
