import ProbeWeave.Project.Origin

/-! # The order in which classes are searched

A search for a method goes from classes to their bases, then to the bases of those and so on, and
passes over classes that it met before. The bound on its levels is no part of what it finds, since
every level but the last meets a class of the project that was not met before. Where the bases of
all classes in reach are known, it finds the method of the first class that has one, in the order
that takes all classes generation by generation and passes over none.
-/

namespace ProbeWeave.Project

open Outcome

namespace Project

variable {p : Project} {bases : BaseSearch}

/-- The method of a name that the first of some classes has. -/
def firstMethod (name : String) (classes : List ClassInfo) : Option Definition :=
  classes.findSome? (·.methods.get? name)

theorem firstMethod_append (name : String) (classes others : List ClassInfo) :
    firstMethod name (classes ++ others) = (firstMethod name classes).or (firstMethod name others) :=
  List.findSome?_append

theorem sameClass_refl (c : ClassInfo) : sameClass c c = true := by
  simp [sameClass]

/-! ### The bound on the levels -/

/-- All classes of a project. -/
def allClasses (p : Project) : List ClassInfo :=
  p.modules.values.flatMap (·.classes.values)

theorem mem_allClasses {c : ClassInfo} : c ∈ p.allClasses ↔ p.HoldsClass c := by
  simp [allClasses, HoldsClass]

theorem length_allClasses : p.allClasses.length = p.classCount := by
  simp only [allClasses, classCount, List.length_flatMap, Dictionary.values, List.length_map]

/-- The classes of the project that a search has still to meet. -/
def unmet (p : Project) (met : List ClassInfo) : List ClassInfo :=
  p.allClasses.filter fun c => !met.any (sameClass c)

theorem length_unmet_le (met : List ClassInfo) : (p.unmet met).length ≤ p.classCount := by
  rw [← length_allClasses]
  exact List.length_filter_le _ _

/-- Meeting a class leaves fewer to be met. -/
theorem length_unmet_cons {c : ClassInfo} {met : List ClassInfo} (held : p.HoldsClass c)
    (new : met.any (sameClass c) = false) :
    (p.unmet (c :: met)).length < (p.unmet met).length := by
  have fewer : p.unmet (c :: met) = (p.unmet met).filter fun x => !sameClass x c := by
    simp only [unmet, List.filter_filter, List.any_cons, Bool.not_or]
  rw [fewer, List.length_filter_lt_length_iff_exists]
  refine ⟨c, List.mem_filter.mpr ⟨mem_allClasses.mpr held, ?_⟩, ?_⟩
  · rw [new]
    rfl
  · simp [sameClass_refl]

/-- A level that comes to further classes meets one that was not met before. -/
theorem searchLevel_meets (name : String) (classes next met : List ClassInfo)
    (held : ∀ c ∈ classes, p.HoldsClass c) :
    Gives (searchLevel bases name classes next met) fun found =>
      ∀ further now, found = .inr (further, now) →
        (further = next ∧ now = met) ∨ (p.unmet now).length < (p.unmet met).length := by
  induction classes generalizing next met with
  | nil =>
    refine gives_ok ?_
    rintro further now ⟨rfl, rfl⟩
    exact .inl ⟨rfl, rfl⟩
  | cons c rest ih =>
    obtain ⟨here, others⟩ := List.forall_mem_cons.mp held
    rw [searchLevel]
    split
    · exact ih next met others
    · rename_i new
      have fewer := length_unmet_cons here (Bool.eq_false_iff.mpr new)
      split
      · exact gives_ok (by simp)
      · refine gives_bind (P := fun _ => True) (fun _ _ => trivial) fun _ _ => ?_
        intro found success further now same
        rcases ih _ _ others found success further now same with ⟨-, rfl⟩ | later
        · exact .inr fewer
        · exact .inr (Nat.lt_trans later fewer)

/-- One level more makes no difference to a search with enough of them. -/
theorem searchLevels_succ (keeps : p.KeepsBases bases) (name : String) {levels : Nat}
    {classes met : List ClassInfo} (held : ∀ c ∈ classes, p.HoldsClass c)
    (enough : (p.unmet met).length < levels) :
    searchLevels bases name (levels + 1) classes met = searchLevels bases name levels classes met := by
  induction levels generalizing classes met with
  | zero => cases enough
  | succ levels ih =>
    rw [searchLevels, searchLevels]
    cases result : searchLevel bases name classes [] met with
    | error fault => rfl
    | ok found =>
      obtain d | ⟨next, now⟩ := found
      · rfl
      · have further := (searchLevel_holds keeps name classes [] met held (by simp) _ result).2 _ _ rfl
        have meets := searchLevel_meets name classes [] met held _ result _ _ rfl
        show (if next.isEmpty then _ else _) = if next.isEmpty then _ else _
        cases next with
        | nil => rfl
        | cons c rest =>
          obtain ⟨absent, -⟩ | fewer := meets
          · cases absent
          · exact ih further (by omega)

/-- A search finds the same within any bound above the number of classes. -/
theorem searchLevels_eq_findFrom (keeps : p.KeepsBases bases) (name : String) {levels : Nat}
    {classes : List ClassInfo} (held : ∀ c ∈ classes, p.HoldsClass c)
    (enough : p.classCount < levels) :
    searchLevels bases name levels classes [] = p.findFrom bases classes name := by
  have all := length_unmet_le (p := p) []
  have same : ∀ n, p.classCount + 1 ≤ n →
      searchLevels bases name n classes [] = searchLevels bases name (p.classCount + 1) classes [] := by
    intro n above
    induction above with
    | refl => rfl
    | step above ih => rw [searchLevels_succ keeps name held (Nat.lt_of_le_of_lt all above), ih]
  rw [findFrom, same levels enough, same (p.classCount + 2) (by omega)]

/-! ### Generation by generation -/

/-- Classes, their bases, the bases of those and so on, through a number of generations. -/
def nearestFirst (next : ClassInfo → List ClassInfo) : Nat → List ClassInfo → List ClassInfo
  | 0, _ => []
  | generations + 1, classes =>
    classes ++ nearestFirst next generations (classes.flatMap next)

theorem nearestFirst_nil (next : ClassInfo → List ClassInfo) (n : Nat) :
    nearestFirst next n [] = [] := by
  induction n with
  | zero => rfl
  | succ n ih => rw [nearestFirst, List.flatMap_nil, ih, List.append_nil]

/-- More generations of more classes have all classes of fewer. -/
theorem mem_nearestFirst_mono {next : ClassInfo → List ClassInfo} {n m : Nat}
    {classes more : List ClassInfo} (later : n ≤ m) (subset : ∀ c ∈ classes, c ∈ more)
    {x : ClassInfo} (member : x ∈ nearestFirst next n classes) : x ∈ nearestFirst next m more := by
  induction n generalizing m classes more with
  | zero => cases member
  | succ n ih =>
    obtain ⟨m, rfl⟩ : ∃ k, m = k + 1 := ⟨m - 1, by omega⟩
    rcases List.mem_append.mp member with here | above
    · exact List.mem_append_left _ (subset x here)
    · refine List.mem_append_right _ (ih (Nat.le_of_succ_le_succ later) (fun b isBase => ?_) above)
      obtain ⟨a, inClasses, isBase⟩ := List.mem_flatMap.mp isBase
      exact List.mem_flatMap.mpr ⟨a, subset a inClasses, isBase⟩

/-- Generations do not leave a region that has the bases of its classes. -/
theorem nearestFirst_inside {next : ClassInfo → List ClassInfo} {region : ClassInfo → Prop}
    (closed : ∀ c, region c → ∀ b ∈ next c, region b) (n : Nat) {classes : List ClassInfo}
    (inside : ∀ c ∈ classes, region c) : ∀ x ∈ nearestFirst next n classes, region x := by
  induction n generalizing classes with
  | zero => exact fun _ member => nomatch member
  | succ n ih =>
    intro x member
    rcases List.mem_append.mp member with here | above
    · exact inside x here
    · refine ih (fun b isBase => ?_) x above
      obtain ⟨a, inClasses, isBase⟩ := List.mem_flatMap.mp isBase
      exact closed a (inside a inClasses) b isBase

/--
Whether a list arises from another by leaving out classes that stand earlier in it or were seen
before.
-/
inductive Thins : List ClassInfo → List ClassInfo → List ClassInfo → Prop where
  | nil (seen) : Thins seen [] []
  | keep {seen full thin : List ClassInfo} (c : ClassInfo) :
      Thins (c :: seen) full thin → Thins seen (c :: full) (c :: thin)
  | leave {seen full thin : List ClassInfo} {c : ClassInfo} :
      c ∈ seen → Thins seen full thin → Thins seen (c :: full) thin

namespace Thins

variable {seen seen' full thin : List ClassInfo}

theorem refl (seen classes : List ClassInfo) : Thins seen classes classes := by
  induction classes generalizing seen with
  | nil => exact .nil seen
  | cons c rest ih => exact .keep c (ih _)

theorem mono (thins : Thins seen full thin) (more : ∀ c ∈ seen, c ∈ seen') :
    Thins seen' full thin := by
  induction thins generalizing seen' with
  | nil => exact .nil _
  | keep c _ ih =>
    refine .keep c (ih fun x member => ?_)
    rcases List.mem_cons.mp member with rfl | member
    · exact List.mem_cons_self
    · exact List.mem_cons_of_mem _ (more x member)
  | leave member _ ih => exact .leave (more _ member) (ih more)

/-- Classes that were all seen can be left out. -/
theorem leaveAll {classes : List ClassInfo} (all : ∀ c ∈ classes, c ∈ seen)
    (thins : Thins seen full thin) : Thins seen (classes ++ full) thin := by
  induction classes with
  | nil => exact thins
  | cons c rest ih =>
    obtain ⟨here, others⟩ := List.forall_mem_cons.mp all
    exact .leave here (ih others)

/-- Classes that are all kept are seen by those that follow. -/
theorem keepAll {classes : List ClassInfo} (thins : Thins (seen ++ classes) full thin) :
    Thins seen (classes ++ full) (classes ++ thin) := by
  induction classes generalizing seen with
  | nil => exact thins.mono (by simp)
  | cons c rest ih =>
    exact .keep c (ih (thins.mono (by simp [or_left_comm])))

theorem subset (thins : Thins seen full thin) : ∀ c ∈ thin, c ∈ full := by
  induction thins with
  | nil => exact fun _ member => member
  | keep c _ ih =>
    exact List.forall_mem_cons.mpr
      ⟨List.mem_cons_self, fun x member => List.mem_cons_of_mem _ (ih x member)⟩
  | leave _ _ ih => exact fun x member => List.mem_cons_of_mem _ (ih x member)

/-- What is left out changes nothing about the first method, if no class seen before has one. -/
theorem firstMethod {name : String} (thins : Thins seen full thin)
    (silent : ∀ c ∈ seen, c.methods.get? name = none) :
    firstMethod name full = Project.firstMethod name thin := by
  induction thins with
  | nil => rfl
  | keep c _ ih =>
    simp only [Project.firstMethod, List.findSome?_cons] at ih ⊢
    cases own : c.methods.get? name with
    | some d => rfl
    | none => exact ih (List.forall_mem_cons.mpr ⟨own, silent⟩)
  | leave member _ ih =>
    simp only [Project.firstMethod, List.findSome?_cons] at ih ⊢
    rw [silent _ member]
    exact ih silent

end Thins

/-- Classes whose bases are known and among them again, no two of them alike. -/
structure Charted (bases : BaseSearch) (next : ClassInfo → List ClassInfo)
    (region : ClassInfo → Prop) : Prop where
  known : ∀ c, region c → bases c = .ok (next c)
  closed : ∀ c, region c → ∀ b ∈ next c, region b
  apart : ∀ a b, region a → region b → sameClass a b = true → a = b

namespace Charted

variable {next : ClassInfo → List ClassInfo} {region : ClassInfo → Prop}
  {name : String} {seen full thin met : List ClassInfo}

theorem any_sameClass (charted : Charted bases next region) {c : ClassInfo} (inside : region c)
    (metInside : ∀ x ∈ met, region x) : met.any (sameClass c) = true ↔ c ∈ met := by
  rw [List.any_eq_true]
  constructor
  · rintro ⟨x, member, same⟩
    rwa [charted.apart c x inside (metInside x member) same]
  · exact fun member => ⟨c, member, sameClass_refl c⟩

/-- A level finds the first method of its classes. -/
theorem searchLevel_found (charted : Charted bases next region) (inside : ∀ c ∈ thin, region c)
    (metInside : ∀ c ∈ met, region c) (silent : ∀ c ∈ met, c.methods.get? name = none)
    {d : Definition} (found : firstMethod name thin = some d) (further : List ClassInfo) :
    searchLevel bases name thin further met = .ok (.inl d) := by
  induction thin generalizing further met with
  | nil => cases found
  | cons c rest ih =>
    obtain ⟨here, others⟩ := List.forall_mem_cons.mp inside
    rw [firstMethod, List.findSome?_cons] at found
    rw [searchLevel]
    split
    · rename_i member
      have member := (charted.any_sameClass here metInside).mp member
      rw [silent c member] at found
      exact ih others metInside silent found further
    · cases own : c.methods.get? name with
      | some d' =>
        rw [own] at found
        cases found
        rfl
      | none =>
        rw [own] at found
        simp only [charted.known c here]
        exact ih others (List.forall_mem_cons.mpr ⟨here, metInside⟩)
          (List.forall_mem_cons.mpr ⟨own, silent⟩) found _

/--
A level without a method goes on to the bases of all its classes, leaving out what was met. The
induction is on the classes of the level; `ahead` are those that it meets in the end, and the bases
that it already goes on to.
-/
theorem searchLevel_silent (charted : Charted bases next region) (inside : ∀ c ∈ thin, region c)
    (metInside : ∀ c ∈ met, region c) (silent : ∀ c ∈ thin, c.methods.get? name = none)
    (thins : Thins seen full thin) (seenMet : ∀ c ∈ seen, c ∈ met) {ahead : List ClassInfo}
    (closed : ∀ c ∈ met, ∀ b ∈ next c, b ∈ ahead) (further : List ClassInfo) :
    ∃ added now, searchLevel bases name thin further met = .ok (.inr (further ++ added, now)) ∧
      (∀ c, c ∈ now ↔ c ∈ met ∨ c ∈ thin) ∧ Thins ahead (full.flatMap next) added ∧
      ∀ c ∈ now, c ∈ met ∨ ∀ b ∈ next c, b ∈ added := by
  induction thins generalizing met ahead further with
  | nil => exact ⟨[], met, by simp [searchLevel], by simp, .nil _, fun c member => .inl member⟩
  | leave member _ ih =>
    obtain ⟨added, now, result, members, thins, expanded⟩ :=
      ih inside metInside silent seenMet closed further
    refine ⟨added, now, result, members, ?_, expanded⟩
    rw [List.flatMap_cons]
    exact thins.leaveAll (closed _ (seenMet _ member))
  | @keep seen full rest c _ ih =>
    obtain ⟨here, others⟩ := List.forall_mem_cons.mp inside
    obtain ⟨own, silent⟩ := List.forall_mem_cons.mp silent
    simp only [searchLevel, own, charted.known c here, List.flatMap_cons]
    by_cases known : c ∈ met
    · obtain ⟨added, now, result, members, thins, expanded⟩ :=
        ih others metInside silent (List.forall_mem_cons.mpr ⟨known, seenMet⟩) closed further
      rw [if_pos ((charted.any_sameClass here metInside).mpr known)]
      refine ⟨added, now, result, fun x => ?_, thins.leaveAll (closed c known), expanded⟩
      rw [members, List.mem_cons]
      grind
    · have metInside' : ∀ x ∈ c :: met, region x := List.forall_mem_cons.mpr ⟨here, metInside⟩
      have seenMet' : ∀ x ∈ c :: seen, x ∈ c :: met := fun x member => by grind
      have closed' : ∀ x ∈ c :: met, ∀ b ∈ next x, b ∈ ahead ++ next c := by
        refine List.forall_mem_cons.mpr ⟨fun b member => List.mem_append_right _ member, ?_⟩
        exact fun x member b isBase => List.mem_append_left _ (closed x member b isBase)
      obtain ⟨added, now, result, members, thins, expanded⟩ :=
        ih others metInside' silent seenMet' closed' (further ++ next c)
      rw [if_neg (fun member => known ((charted.any_sameClass here metInside).mp member))]
      refine ⟨next c ++ added, now, ?_, fun x => ?_, thins.keepAll, fun x member => ?_⟩
      · rw [← List.append_assoc]
        exact result
      · rw [members]
        grind
      · rcases expanded x member with later | isNew
        · rcases List.mem_cons.mp later with rfl | later
          · exact .inr fun b isBase => List.mem_append_left _ isBase
          · exact .inl later
        · exact .inr fun b isBase => List.mem_append_right _ (isNew b isBase)

theorem searchLevels_nil (name : String) (levels : Nat) (met : List ClassInfo) :
    searchLevels bases name levels [] met = .ok none := by
  cases levels <;> rfl

/--
A search finds the first method generation by generation. What its levels leave out are classes
that it met, none of which has the method, and the bases of those are met or follow.
-/
theorem searchLevels_eq (charted : Charted bases next region) (levels : Nat)
    (inside : ∀ c ∈ full, region c) (metInside : ∀ c ∈ met, region c)
    (silent : ∀ c ∈ met, c.methods.get? name = none) (thins : Thins met full thin)
    (closed : ∀ c ∈ met, ∀ b ∈ next c, b ∈ met ∨ b ∈ thin) :
    searchLevels bases name levels thin met =
      .ok (firstMethod name (nearestFirst next levels full)) := by
  induction levels generalizing full thin met with
  | zero => rfl
  | succ levels ih =>
    have thinInside : ∀ c ∈ thin, region c := fun c member => inside c (thins.subset c member)
    have here := thins.firstMethod silent
    rw [searchLevels, nearestFirst, firstMethod_append, here]
    cases found : firstMethod name thin with
    | some d =>
      rw [charted.searchLevel_found thinInside metInside silent found]
      rfl
    | none =>
      have thinSilent : ∀ c ∈ thin, c.methods.get? name = none := List.findSome?_eq_none_iff.mp found
      have ahead : ∀ c ∈ met, ∀ b ∈ next c, b ∈ met ++ thin := by simpa using closed
      obtain ⟨added, now, result, members, left, expanded⟩ :=
        charted.searchLevel_silent thinInside metInside thinSilent thins (fun _ member => member)
          ahead []
      have nextInside : ∀ c ∈ full.flatMap next, region c := fun c member => by
        obtain ⟨a, member, isBase⟩ := List.mem_flatMap.mp member
        exact charted.closed a (inside a member) c isBase
      have nowInside : ∀ c ∈ now, region c := fun c member =>
        ((members c).mp member).elim (metInside c) (thinInside c)
      have nowSilent : ∀ c ∈ now, c.methods.get? name = none := fun c member =>
        ((members c).mp member).elim (silent c) (thinSilent c)
      have nowThins : Thins now (full.flatMap next) added :=
        left.mono fun c member => (members c).mpr (List.mem_append.mp member)
      have nowClosed : ∀ c ∈ now, ∀ b ∈ next c, b ∈ now ∨ b ∈ added := fun c member b isBase =>
        (expanded c member).elim (fun old => .inl ((members b).mpr (closed c old b isBase)))
          fun isNew => .inr (isNew b isBase)
      have later := ih nextInside nowInside nowSilent nowThins nowClosed
      rw [result, Option.none_or, ← later]
      show (if added.isEmpty then _ else _) = _
      cases added with
      | nil => exact (searchLevels_nil name levels now).symm
      | cons => rfl

/-- A method is found on the first class, generation by generation, that has it. -/
theorem searchLevels_start (charted : Charted bases next region) (name : String) (levels : Nat)
    {classes : List ClassInfo} (inside : ∀ c ∈ classes, region c) :
    searchLevels bases name levels classes [] =
      .ok (firstMethod name (nearestFirst next levels classes)) :=
  charted.searchLevels_eq levels inside (by simp) (by simp) (.refl [] classes) (by simp)

end Charted

end Project

end ProbeWeave.Project
