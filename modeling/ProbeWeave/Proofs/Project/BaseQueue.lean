import ProbeWeave.Proofs.Project.Inquiry
import ProbeWeave.Proofs.Project.MethodOrder

/-! # The queue of classes

A method is looked for along a queue of classes. A class that was met before is passed over, and the
bases of any other class that does not have the method go to the end of the queue. So a class can stand
in the queue many times, and the queue can grow while it is worked off. It comes to its end whatever
bases the classes of the project have, since each class is met only once, and it finds the method of
the nearest class that has one.
-/

set_option linter.dupNamespace false

namespace ProbeWeave.Project

open Syntax Outcome Relation

namespace Project

variable {p : Project} {bases : BaseSearch} {next : ClassInfo → List ClassInfo} {name : String}
  {queue classes met : List ClassInfo} {found : Option Definition}

/-! ### The search as a queue -/

/-- What a search along a queue of classes finds, given the classes that it met before. -/
inductive Searches (bases : BaseSearch) (name : String) :
    List ClassInfo → List ClassInfo → Option Definition → Prop where
  | exhausted {met : List ClassInfo} : Searches bases name [] met none
  | again {c : ClassInfo} {rest met : List ClassInfo} {found : Option Definition} :
      met.any (sameClass c) = true → Searches bases name rest met found →
      Searches bases name (c :: rest) met found
  | here {c : ClassInfo} {rest met : List ClassInfo} {d : Definition} :
      met.any (sameClass c) = false → c.methods.get? name = some d →
      Searches bases name (c :: rest) met (some d)
  | onward {c : ClassInfo} {rest met bs : List ClassInfo} {found : Option Definition} :
      met.any (sameClass c) = false → c.methods.get? name = none → bases c = .ok bs →
      Searches bases name (rest ++ bs) (c :: met) found → Searches bases name (c :: rest) met found

/-- A search finds one thing. -/
theorem Searches.unique {other : Option Definition} (search : Searches bases name queue met found)
    (search' : Searches bases name queue met other) : other = found := by
  induction search with
  | exhausted =>
    cases search'
    rfl
  | again member _ ih =>
    cases search' with
    | again _ search' => exact ih search'
    | here new | onward new => exact absurd member (by simp [new])
  | here new own =>
    cases search' with
    | again member => exact absurd member (by simp [new])
    | here _ own' => exact own'.symm.trans own
    | onward _ own' => exact absurd (own.symm.trans own') nofun
  | onward new own known _ ih =>
    cases search' with
    | again member => exact absurd member (by simp [new])
    | here _ own' => exact absurd (own.symm.trans own') nofun
    | onward _ _ known' search' =>
      cases known.symm.trans known'
      exact ih search'

namespace Charted

/--
A search ends whatever is in its queue. Passing over a class leaves a shorter queue, and going on to
the bases of a class leaves fewer classes to be met, however many the bases are.
-/
theorem searches (charted : Charted bases next p.HoldsClass) (name : String)
    (queue met : List ClassInfo) (held : ∀ c ∈ queue, p.HoldsClass c) :
    ∃ found, Searches bases name queue met found := by
  match queue with
  | [] => exact ⟨none, .exhausted⟩
  | c :: rest =>
    obtain ⟨here, others⟩ := List.forall_mem_cons.mp held
    cases new : met.any (sameClass c) with
    | true =>
      obtain ⟨found, search⟩ := charted.searches name rest met others
      exact ⟨found, .again new search⟩
    | false =>
      cases own : c.methods.get? name with
      | some d => exact ⟨some d, .here new own⟩
      | none =>
        have fewer := length_unmet_cons here new
        obtain ⟨found, search⟩ := charted.searches name (rest ++ next c) (c :: met)
          (List.forall_mem_append.mpr ⟨others, charted.closed c here⟩)
        exact ⟨found, .onward new own (charted.known c here) search⟩
termination_by ((p.unmet met).length, queue.length)

/-- A level is the part of the queue up to the bases of its classes. -/
theorem searchLevel_of_searches (charted : Charted bases next p.HoldsClass)
    (further : List ClassInfo) (held : ∀ c ∈ classes ++ further, p.HoldsClass c)
    (search : Searches bases name (classes ++ further) met found) :
    (∃ d, found = some d ∧ searchLevel bases name classes further met = .ok (.inl d)) ∨
      ∃ later now, searchLevel bases name classes further met = .ok (.inr (later, now)) ∧
        (∀ c ∈ later, p.HoldsClass c) ∧ Searches bases name later now found := by
  induction classes generalizing further met with
  | nil => exact .inr ⟨further, met, rfl, held, search⟩
  | cons c rest ih =>
    rw [List.cons_append] at held search
    obtain ⟨here, others⟩ := List.forall_mem_cons.mp held
    rw [searchLevel]
    cases search with
    | again member search =>
      rw [if_pos member]
      exact ih further others search
    | here new own =>
      rw [if_neg (by simp [new]), own]
      exact .inl ⟨_, rfl, rfl⟩
    | onward new own known search =>
      rw [if_neg (by simp [new]), own, known]
      rw [List.append_assoc] at search
      cases (charted.known c here).symm.trans known
      have heldNext : ∀ b ∈ rest ++ (further ++ next c), p.HoldsClass b := by
        rw [← List.append_assoc]
        exact List.forall_mem_append.mpr ⟨others, charted.closed c here⟩
      exact ih (further ++ next c) heldNext search

/-- Level by level the same is found as along the queue. -/
theorem searchLevels_of_searches (charted : Charted bases next p.HoldsClass) {levels : Nat}
    (held : ∀ c ∈ classes, p.HoldsClass c) (enough : (p.unmet met).length < levels)
    (search : Searches bases name classes met found) :
    searchLevels bases name levels classes met = .ok found := by
  induction levels generalizing classes met with
  | zero => cases enough
  | succ levels ih =>
    rw [searchLevels]
    rcases charted.searchLevel_of_searches [] (by simpa using held)
      (by simpa using search) with ⟨d, rfl, result⟩ | ⟨later, now, result, heldLater, search⟩
    · rw [result]
      rfl
    · have meets := searchLevel_meets name classes [] met held _ result _ _ rfl
      rw [result]
      show (if later.isEmpty then _ else _) = _
      cases later with
      | nil =>
        cases search
        rfl
      | cons c rest =>
        obtain ⟨absent, -⟩ | fewer := meets
        · cases absent
        · exact ih heldLater (by omega) search

end Charted

/-! ### Generations -/

/-- The classes that a number of steps to bases leads to, in the order of the bases. -/
def generation (next : ClassInfo → List ClassInfo) : Nat → List ClassInfo → List ClassInfo
  | 0, classes => classes
  | steps + 1, classes => generation next steps (classes.flatMap next)

/-- The generations of classes are all that is reached through bases. -/
theorem exists_mem_generation {x : ClassInfo} :
    (∃ k, x ∈ generation next k classes) ↔
      ∃ c ∈ classes, ReflTransGen (fun a b => b ∈ next a) c x := by
  constructor
  · rintro ⟨k, member⟩
    induction k generalizing classes with
    | zero => exact ⟨x, member, .refl⟩
    | succ k ih =>
      obtain ⟨b, inBases, path⟩ := ih member
      obtain ⟨c, inClasses, isBase⟩ := List.mem_flatMap.mp inBases
      exact ⟨c, inClasses, .head isBase path⟩
  · rintro ⟨c, member, path⟩
    induction path using ReflTransGen.head_induction_on generalizing classes with
    | refl => exact ⟨0, member⟩
    | head isBase _ ih =>
      obtain ⟨k, above⟩ := ih (List.mem_flatMap.mpr ⟨_, member, isBase⟩)
      exact ⟨k + 1, above⟩

theorem firstMethod_nearestFirst_eq_none {n : Nat} :
    firstMethod name (nearestFirst next n classes) = none ↔
      ∀ k < n, firstMethod name (generation next k classes) = none := by
  induction n generalizing classes with
  | zero => simp [nearestFirst, firstMethod]
  | succ n ih =>
    rw [nearestFirst, firstMethod_append, Option.or_eq_none_iff, ih, Nat.forall_lt_succ_left]
    rfl

/-- Through a number of generations the first method is the first of the first generation that has one. -/
theorem firstMethod_nearestFirst_eq_some {n : Nat} {d : Definition} :
    firstMethod name (nearestFirst next n classes) = some d ↔
      ∃ k < n, firstMethod name (generation next k classes) = some d ∧
        ∀ j < k, firstMethod name (generation next j classes) = none := by
  induction n generalizing classes with
  | zero => simp [nearestFirst, firstMethod]
  | succ n ih =>
    rw [nearestFirst, firstMethod_append, Option.or_eq_some_iff, ih, Nat.exists_lt_succ_left]
    simp only [Nat.forall_lt_succ_left, Nat.not_lt_zero, false_imp_iff, implies_true, and_true]
    constructor
    · rintro (own | ⟨silent, k, below, later, earlier⟩)
      · exact .inl own
      · exact .inr ⟨k, below, later, silent, earlier⟩
    · rintro (own | ⟨k, below, later, silent, earlier⟩)
      · exact .inl own
      · exact .inr ⟨silent, k, below, later, earlier⟩

/-! ### The nearest class -/

/--
Whether a search from some classes finds the method of the nearest class that has one. It finds none
exactly if no class reached through bases has one; and a method exactly if a class has it while the
classes of all nearer generations, and those before it in its own, have none.
-/
structure Nearest (next : ClassInfo → List ClassInfo) (name : String) (classes : List ClassInfo)
    (found : Option Definition) : Prop where
  none_iff : found = none ↔
    ∀ c ∈ classes, ∀ x, ReflTransGen (fun a b => b ∈ next a) c x → x.methods.get? name = none
  some_iff : ∀ d, found = some d ↔ ∃ k before x after,
    generation next k classes = before ++ x :: after ∧ x.methods.get? name = some d ∧
      (∀ y ∈ before, y.methods.get? name = none) ∧
        ∀ j < k, ∀ y ∈ generation next j classes, y.methods.get? name = none

/-- What is found through any number of generations above a bound is that of the nearest class. -/
theorem Nearest.of_nearestFirst (bound : Nat)
    (same : ∀ n, bound ≤ n → found = firstMethod name (nearestFirst next n classes)) :
    Nearest next name classes found where
  none_iff := by
    constructor
    · intro nothing c member x path
      obtain ⟨k, inGeneration⟩ := exists_mem_generation.mpr ⟨c, member, path⟩
      have silent := (same (max bound (k + 1)) (by omega)).symm.trans nothing
      rw [firstMethod_nearestFirst_eq_none] at silent
      exact firstMethod_eq_none.mp (silent k (by omega)) x inGeneration
    · intro silent
      rw [same bound (Nat.le_refl _), firstMethod_nearestFirst_eq_none]
      refine fun k _ => firstMethod_eq_none.mpr fun x inGeneration => ?_
      obtain ⟨c, member, path⟩ := exists_mem_generation.mp ⟨k, inGeneration⟩
      exact silent c member x path
  some_iff d := by
    have first k : firstMethod name (generation next k classes) = some d ↔
        ∃ before x after, generation next k classes = before ++ x :: after ∧
          x.methods.get? name = some d ∧ ∀ y ∈ before, y.methods.get? name = none :=
      List.findSome?_eq_some_iff
    constructor
    · intro something
      rw [same bound (Nat.le_refl _), firstMethod_nearestFirst_eq_some] at something
      obtain ⟨k, -, here, earlier⟩ := something
      obtain ⟨before, x, after, split, own, silent⟩ := (first k).mp here
      exact ⟨k, before, x, after, split, own, silent, fun j below =>
        firstMethod_eq_none.mp (earlier j below)⟩
    · rintro ⟨k, before, x, after, split, own, silent, earlier⟩
      rw [same (max bound (k + 1)) (by omega), firstMethod_nearestFirst_eq_some]
      exact ⟨k, by omega, (first k).mpr ⟨before, x, after, split, own, silent⟩, fun j below =>
        firstMethod_eq_none.mpr (earlier j below)⟩

/-- A search of classes of the project ends, and finds the method of the nearest class. -/
theorem Charted.findFrom_nearest (charted : Charted bases next p.HoldsClass)
    (held : ∀ c ∈ classes, p.HoldsClass c) (name : String) :
    ∃ found, (∀ other, Searches bases name classes [] other ↔ other = found) ∧
      p.findFrom bases classes name = .ok found ∧ Nearest next name classes found := by
  obtain ⟨found, search⟩ := charted.searches name classes [] held
  have levels n (enough : p.classCount + 1 ≤ n) :
      searchLevels bases name n classes [] = .ok found :=
    charted.searchLevels_of_searches held (Nat.lt_of_le_of_lt (length_unmet_le []) enough) search
  refine ⟨found, fun other => ⟨search.unique, ?_⟩, levels _ (by omega),
    .of_nearestFirst (p.classCount + 1) ?_⟩
  · rintro rfl
    exact search
  · intro n enough
    exact Except.ok.inj ((levels n enough).symm.trans (charted.searchLevels_start name n held))

/-- How a method is found on the bases of a class, given what is known of bases. -/
def findAbove (p : Project) (bases : BaseSearch) : MethodSearch :=
  fun c name => do p.findFrom bases (← bases c) name

theorem findWith_bases (p : Project) : p.findWith p.bases = p.findMethod := rfl

theorem findAbove_bases (p : Project) : p.findAbove p.bases = p.findInherited := rfl

/-- Whatever bases the classes of a project have, also themselves, one another or the same ones: a
search for a method on a class or on its bases ends, and it finds the method of the nearest class that
has one, or none if none has. With the bases that the project finds, the lookups here are `findMethod`
and `findInherited`. -/
theorem found_on_nearest (charted : Charted bases next p.HoldsClass) {c : ClassInfo}
    (held : p.HoldsClass c) (name : String) :
    (∃ found, (∀ other, Searches bases name [c] [] other ↔ other = found) ∧
      p.findWith bases c name = .ok found ∧ Nearest next name [c] found) ∧
    ∃ found, (∀ other, Searches bases name (next c) [] other ↔ other = found) ∧
      p.findAbove bases c name = .ok found ∧ Nearest next name (next c) found := by
  refine ⟨charted.findFrom_nearest (List.forall_mem_singleton.mpr held) name, ?_⟩
  rw [findAbove, charted.known c held]
  exact charted.findFrom_nearest (charted.closed c held) name

/-- The classes of a project that was read are charted if the bases of all of them are found. -/
theorem charted_of_load {t : Files.FileTree} {root packages : List String} {guesses : Bool}
    (loaded : (load t root packages guesses).1 = .ok p)
    (known : ∀ c, p.HoldsClass c → p.bases c = .ok (next c)) :
    Charted p.bases next p.HoldsClass where
  known := known
  closed c held := bases_keeps c _ (known c held)
  apart _ _ := eq_of_sameClass (load_known t root packages guesses p loaded)
    (load_filed t root packages guesses p loaded)

end Project

/-! ### Classes that are bases of one another -/

namespace LoopedBases

open SingleModule Project

def source : String :=
  "class A(B, A, C):\n    pass\n\n\nclass B(A, C):\n    pass\n\n\n" ++
    "class C(B):\n    def m(self):\n        pass\n"

def method : Stmt :=
  .functionDef ⟨10, 11⟩ false "m" (.mk [] [.mk "self" none none] none [] none) [.pass ⟨11, 11⟩] [] none

def body : List Stmt :=
  [.classDef ⟨1, 2⟩ "A" [.name "B" .load, .name "A" .load, .name "C" .load] [] [.pass ⟨2, 2⟩] [],
    .classDef ⟨5, 6⟩ "B" [.name "A" .load, .name "C" .load] [] [.pass ⟨6, 6⟩] [],
    .classDef ⟨9, 11⟩ "C" [.name "B" .load] [] [method] []]

def m : Definition := ⟨⟨"m", 0, some "C", "m", 10⟩, method⟩

def a : ClassInfo :=
  ⟨"m", "A", [.name "B" .load, .name "A" .load, .name "C" .load], [.pass ⟨2, 2⟩], .empty, .empty⟩
def b : ClassInfo :=
  ⟨"m", "B", [.name "A" .load, .name "C" .load], [.pass ⟨6, 6⟩], .empty, .empty⟩
def c : ClassInfo := ⟨"m", "C", [.name "B" .load], [method], ⟨[("m", m)]⟩, .empty⟩

def module : Module :=
  ⟨unit source body, .empty, ⟨[("A", a), ("B", b), ("C", c)]⟩, .empty, [m]⟩

def project : Project := SingleModule.project module false

set_option maxRecDepth 10000 in
theorem load_project : (load (SingleModule.tree source) ["p"] [] false).1 = .ok project := by
  have parsed : parseModule source = .ok body := by rfl
  exact load_tree parsed (by cbv) false

theorem holdsClass {x : ClassInfo} : project.HoldsClass x ↔ x = a ∨ x = b ∨ x = c := by
  simp [HoldsClass, project, SingleModule.project, module, Dictionary.values, exists_or]

theorem charted : Charted project.bases project.basesOrNone project.HoldsClass := by
  refine charted_of_load load_project fun x held => ?_
  obtain rfl | rfl | rfl := holdsClass.mp held <;> cbv

theorem found_on_nearest_loopedBases :
    project.HoldsClass a ∧ project.bases a = .ok [b, a, c] ∧ project.bases c = .ok [b] ∧
      project.findMethod a "m" = .ok (some m) ∧ project.findInherited a "m" = .ok (some m) ∧
      project.findMethod a "n" = .ok none ∧ Nearest project.basesOrNone "n" [a] none ∧
      project.findInherited a "n" = .ok none ∧
      Nearest project.basesOrNone "n" (project.basesOrNone a) none := by
  have held : project.HoldsClass a := holdsClass.mpr (.inl rfl)
  obtain ⟨⟨found, -, success, nearest⟩, above, -, inherited, nearestAbove⟩ :=
    found_on_nearest charted held "n"
  have nothing : project.findMethod a "n" = .ok none := by cbv
  have nothingAbove : project.findInherited a "n" = .ok none := by cbv
  rw [findWith_bases, nothing] at success
  rw [findAbove_bases, nothingAbove] at inherited
  cases success
  cases inherited
  exact ⟨held, by cbv, by cbv, by cbv, by cbv, nothing, nearest, nothingAbove, nearestAbove⟩

end LoopedBases

end ProbeWeave.Project
