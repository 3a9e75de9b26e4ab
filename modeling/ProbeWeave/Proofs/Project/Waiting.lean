import Mathlib.Data.Fintype.Card
import Mathlib.Data.Set.Finite.Basic
import Mathlib.Logic.Relation
import Mathlib.Order.Monotone.Basic
import Mathlib.Order.WellFounded
import ProbeWeave.Proofs.Project.Inquiry
import ProbeWeave.Proofs.Project.NearestFirst

/-! # Classes whose bases wait for themselves

What is known of bases with one search nested deeper holds on to all that was known before, and
once a step adds nothing no later step does. The steps are therefore done after as many as there
are classes, and the bases of a class are found within that bound or within none. They are not found
exactly where the searches lead to a class that needs its own bases.
-/

set_option linter.dupNamespace false

namespace ProbeWeave.Project

open Outcome Relation

namespace Project

variable {p : Project} {c d : ClassInfo}

/-! ### Nesting deeper and deeper -/

theorem basesWithin_spreads (n : Nat) : p.Spreads (p.basesWithin n) (p.basesWithin (n + 1)) := by
  induction n with
  | zero =>
    intro c _ bs found
    cases found
  | succ n ih =>
    intro c _ bs found
    rw [basesWithin_succ] at found ⊢
    exact (basesWith_inquires c).monotone (basesWithin_keeps n) ih found

theorem basesWithin_spreads_of_le {n m : Nat} (deeper : n ≤ m) :
    p.Spreads (p.basesWithin n) (p.basesWithin m) := by
  induction deeper with
  | refl => exact .refl _
  | step _ ih => exact fun c held bs found => basesWithin_spreads _ c held bs (ih c held bs found)

/-- Nothing else can go wrong with a search for bases than that it has no end. -/
theorem basesWithin_error {n : Nat} {fault : Fault} (failed : p.basesWithin n c = .error fault) :
    fault = .endlessBases := by
  induction n generalizing c with
  | zero =>
    cases failed
    rfl
  | succ n ih =>
    rw [basesWithin_succ] at failed
    obtain ⟨d, -, unknown, -⟩ := (basesWith_inquires c).waits (basesWithin_keeps n) failed
    exact ih unknown

/-- The classes of the project whose bases are found within a bound. -/
def settled (p : Project) (n : Nat) : List ClassInfo :=
  p.allClasses.filter fun c => (p.basesWithin n c).isOk

theorem isOk_iff {α : Type} {x : Except Fault α} : x.isOk = true ↔ ∃ a, x = .ok a := by
  cases x <;> simp [Except.isOk, Except.toBool]

theorem settled_eq_filter (n : Nat) :
    p.settled n = (p.settled (n + 1)).filter fun c => (p.basesWithin n c).isOk := by
  rw [settled, settled, List.filter_filter]
  refine List.filter_congr fun c member => ?_
  cases found : (p.basesWithin n c).isOk with
  | false => rfl
  | true =>
    obtain ⟨bs, found⟩ := isOk_iff.mp found
    rw [Bool.true_and, eq_comm, isOk_iff]
    exact ⟨bs, basesWithin_spreads n c (mem_allClasses.mp member) bs found⟩

/-- If a step settles no class, it changes nothing for the classes of the project. -/
theorem basesWithin_eq_of_length {n : Nat}
    (same : (p.settled n).length = (p.settled (n + 1)).length) (held : p.HoldsClass c) :
    p.basesWithin (n + 1) c = p.basesWithin n c := by
  rw [settled_eq_filter n, List.length_filter_eq_length_iff] at same
  cases result : p.basesWithin (n + 1) c with
  | ok bs =>
    have member : c ∈ p.settled (n + 1) :=
      List.mem_filter.mpr ⟨mem_allClasses.mpr held, isOk_iff.mpr ⟨bs, result⟩⟩
    obtain ⟨bs', found⟩ := isOk_iff.mp (same c member)
    rw [found, ← result]
    exact basesWithin_spreads n c held bs' found
  | error fault =>
    cases before : p.basesWithin n c with
    | ok bs =>
      rw [basesWithin_spreads n c held bs before] at result
      cases result
    | error fault' => rw [basesWithin_error result, basesWithin_error before]

/-- Nothing changes after a step that changes nothing for the classes of the project. -/
theorem basesWithin_succ_eq {n : Nat}
    (same : ∀ c, p.HoldsClass c → p.basesWithin (n + 1) c = p.basesWithin n c) :
    p.basesWithin (n + 2) = p.basesWithin (n + 1) := by
  funext c
  rw [basesWithin_succ (n + 1), basesWithin_succ n]
  exact (basesWith_inquires c).congr (basesWithin_keeps n) same

theorem length_settled_eq (n : Nat) (deep : p.classCount ≤ n) :
    (p.settled n).length = (p.settled p.classCount).length := by
  refine Nat.stabilises_of_monotone (f := fun n => (p.settled n).length)
    (monotone_nat_of_le_succ fun n => ?_) (fun n => ?_) (fun n same => ?_) deep
  · rw [settled_eq_filter n]
    exact List.length_filter_le _ _
  · rw [← length_allClasses]
    exact List.length_filter_le _ _
  · rw [settled, settled, basesWithin_succ_eq fun c held => basesWithin_eq_of_length same held]

/-- Bases that are not found with as many searches nested as there are classes are never found. -/
theorem basesWithin_eq_bases {n : Nat} (deep : p.classCount < n) : p.basesWithin n = p.bases := by
  have stable : p.basesWithin (p.classCount + 2) = p.basesWithin (p.classCount + 1) :=
    basesWithin_succ_eq fun c held =>
      basesWithin_eq_of_length (length_settled_eq _ (Nat.le_succ _)).symm held
  induction deep with
  | refl => rfl
  | step _ ih => rw [basesWithin_succ, ih, bases, ← basesWithin_succ, stable]

theorem basesWith_bases : p.basesWith p.bases = p.bases := by
  rw [bases, ← basesWithin_succ, basesWithin_eq_bases (by omega), bases]

theorem basesWithin_spreads_bases (n : Nat) : p.Spreads (p.basesWithin n) p.bases := by
  rw [← basesWithin_eq_bases (Nat.lt_succ_of_le (Nat.le_max_right n p.classCount))]
  exact basesWithin_spreads_of_le (Nat.le_succ_of_le (Nat.le_max_left n p.classCount))

/-! ### What a class needs -/

/-- Whether what is known of bases keeps to the project and differs from nothing that is found. -/
structure Credible (p : Project) (known : BaseSearch) : Prop where
  keeps : p.KeepsBases known
  agrees : ∀ c, p.HoldsClass c → ∀ bs found, known c = .ok bs → p.bases c = .ok found → bs = found

/--
Whether a class needs the bases of another: nobody who does not know of these can tell the bases of
the class, whatever else he knows.
-/
def Needs (p : Project) (c d : ClassInfo) : Prop :=
  p.HoldsClass d ∧ ∀ known, p.Credible known → (∃ fault, known d = .error fault) →
    ∃ fault, p.basesWith known c = .error fault

theorem credible_basesWithin (n : Nat) : p.Credible (p.basesWithin n) where
  keeps := basesWithin_keeps n
  agrees c held bs found here there := by
    rw [basesWithin_spreads_bases n c held bs here] at there
    exact Except.ok.inj there

/-- What is found of bases, and for the other classes what is known of them. -/
def completed (p : Project) (known : BaseSearch) : BaseSearch := fun c =>
  match p.bases c with
  | .ok bs => .ok bs
  | .error _ => known c

theorem Credible.completed {known : BaseSearch} (credible : p.Credible known) :
    p.KeepsBases (p.completed known) ∧ p.Spreads p.bases (p.completed known) ∧
      p.Spreads known (p.completed known) := by
  refine ⟨fun c => ?_, fun c _ bs found => ?_, fun c held bs here => ?_⟩
  · unfold Project.completed
    split
    · rename_i found
      exact found ▸ bases_keeps c
    · exact credible.keeps c
  · simp only [Project.completed, found]
  · unfold Project.completed
    split
    · rename_i found
      rw [credible.agrees c held bs _ here found]
    · exact here

/-- If the bases of a class are not found, it needs a class whose bases are not found either. -/
theorem needs_of_endless (failed : p.bases c = .error .endlessBases) :
    ∃ d, p.Needs c d ∧ p.bases d = .error .endlessBases := by
  rw [← basesWith_bases] at failed
  obtain ⟨d, held, unknown, waits⟩ := (basesWith_inquires c).waits bases_keeps failed
  refine ⟨d, ⟨held, fun known credible ⟨fault, lacking⟩ => ?_⟩, unknown⟩
  obtain ⟨keeps, found, more⟩ := credible.completed
  have stuck : p.basesWith (p.completed known) c = .error fault :=
    waits _ found fault (by simp only [completed, unknown, lacking])
  cases result : p.basesWith known c with
  | ok bs =>
    rw [(basesWith_inquires c).monotone credible.keeps more result] at stuck
    cases stuck
  | error fault => exact ⟨fault, rfl⟩

/-- The bases that a class needs are found with fewer searches nested than its own. -/
theorem found_of_needs (needs : p.Needs c d) {n : Nat} (found : (p.basesWithin n c).isOk = true) :
    ∃ m < n, (p.basesWithin m d).isOk = true := by
  cases n with
  | zero => cases found
  | succ n =>
    refine ⟨n, Nat.lt_succ_self n, ?_⟩
    rw [basesWithin_succ] at found
    by_contra lacking
    cases answer : p.basesWithin n d with
    | ok bs => exact lacking (isOk_iff.mpr ⟨bs, answer⟩)
    | error fault =>
      obtain ⟨_, stuck⟩ := needs.2 _ (credible_basesWithin n) ⟨fault, answer⟩
      rw [stuck] at found
      cases found

theorem found_of_reflTransGen (needs : ReflTransGen p.Needs c d) {n : Nat}
    (found : (p.basesWithin n c).isOk = true) : ∃ m ≤ n, (p.basesWithin m d).isOk = true := by
  induction needs with
  | refl => exact ⟨n, Nat.le_refl n, found⟩
  | tail _ next ih =>
    obtain ⟨m, below, found⟩ := ih
    obtain ⟨k, less, found⟩ := found_of_needs next found
    exact ⟨k, by omega, found⟩

/-- A class that needs its own bases waits for them within every bound. -/
theorem endless_of_cycle (cycle : TransGen p.Needs d d) (n : Nat) :
    (p.basesWithin n d).isOk = false := by
  induction n using Nat.strong_induction_on with
  | _ n ih =>
    by_contra found
    obtain ⟨e, next, back⟩ := TransGen.head'_iff.mp cycle
    obtain ⟨m, less, found⟩ := found_of_needs next (Bool.eq_true_of_not_eq_false found)
    obtain ⟨k, below, found⟩ := found_of_reflTransGen back found
    rw [ih k (by omega)] at found
    cases found

/-- Among finitely many things of which each leads to another, one is led to that leads to itself. -/
theorem exists_cycle {α : Type} {R : α → α → Prop} {S : Set α} (finite : S.Finite)
    (leads : ∀ x ∈ S, ∃ y ∈ S, R x y) {a : α} (start : a ∈ S) : ∃ x ∈ S, TransGen R x x := by
  by_contra acyclic
  have irreflexive : Std.Irrefl fun x y : S => TransGen R y.1 x.1 :=
    ⟨fun x cycle => acyclic ⟨x.1, x.2, cycle⟩⟩
  have transitive : IsTrans S fun x y => TransGen R y.1 x.1 := ⟨fun _ _ _ h h' => h'.trans h⟩
  have := finite.to_subtype
  obtain ⟨x, -, last⟩ := (Finite.wellFounded_of_trans_of_irrefl fun x y : S =>
    TransGen R y.1 x.1).has_min Set.univ ⟨⟨a, start⟩, trivial⟩
  obtain ⟨y, inside, next⟩ := leads x.1 x.2
  exact last ⟨y, inside⟩ trivial (.single next)

/-- The bases of a class are not found exactly if it needs, over others, a class that needs its own. -/
theorem endless_iff : p.bases c = .error .endlessBases ↔
    ∃ d, ReflTransGen p.Needs c d ∧ TransGen p.Needs d d := by
  constructor
  · intro failed
    let S : Set ClassInfo :=
      {d | p.HoldsClass d ∧ ReflTransGen p.Needs c d ∧ p.bases d = .error .endlessBases}
    have finite : S.Finite :=
      (List.finite_toSet p.allClasses).subset fun d inside => mem_allClasses.mpr inside.1
    have leads : ∀ x ∈ S, ∃ y ∈ S, p.Needs x y := by
      rintro x ⟨-, reached, failed⟩
      obtain ⟨y, needs, failed⟩ := needs_of_endless failed
      exact ⟨y, ⟨needs.1, reached.tail needs, failed⟩, needs⟩
    obtain ⟨d, needs, failed⟩ := needs_of_endless failed
    obtain ⟨x, ⟨-, reached, -⟩, cycle⟩ := exists_cycle finite leads ⟨needs.1, .single needs, failed⟩
    exact ⟨x, reached, cycle⟩
  · rintro ⟨d, reached, cycle⟩
    cases result : p.bases c with
    | ok bs =>
      obtain ⟨m, -, found⟩ := found_of_reflTransGen reached (isOk_iff.mpr ⟨bs, result⟩)
      rw [endless_of_cycle cycle m] at found
      cases found
    | error fault => rw [basesWithin_error result]

end Project

end ProbeWeave.Project
