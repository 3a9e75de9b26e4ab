import ProbeWeave.Proofs.Project.Linearised

/-! # Which method is found

Lookups of the project go through the ancestors of a class by generations, Python goes along the
linearisation. Both have the same classes, so a method is found in the one order if and only if it
is found in the other. They find the same method exactly if the first class with a method of the
name is the same in both; where no class has more than one base the two orders are one.
-/

set_option linter.dupNamespace false

namespace ProbeWeave.Project

open Syntax ProbeWeave.Graph Outcome

namespace Project

variable {p : Project} {c : ClassInfo} {mro : List ClassInfo} {name : String} {n : Nat}

/-- Whether a class has a method of a name itself. -/
def defines (name : String) (c : ClassInfo) : Bool :=
  c.methods.contains name

/-- The first of some classes that has a method of a name. -/
def definer? (name : String) (classes : List ClassInfo) : Option ClassInfo :=
  classes.find? (defines name)

theorem firstMethod_eq_bind (name : String) (classes : List ClassInfo) :
    firstMethod name classes = (definer? name classes).bind (·.methods.get? name) := by
  induction classes with
  | nil => rfl
  | cons c rest ih =>
    simp only [firstMethod, definer?, defines, List.findSome?_cons, List.find?_cons,
      Dictionary.contains] at ih ⊢
    cases own : c.methods.get? name with
    | some d => simp [own]
    | none => simpa [own] using ih

theorem firstMethod_eq_none {classes : List ClassInfo} :
    firstMethod name classes = none ↔ ∀ c ∈ classes, c.methods.get? name = none :=
  List.findSome?_eq_none_iff

/-- The first class that has a method has the first method. -/
theorem firstMethod_of_definer? {classes : List ClassInfo} (first : definer? name classes = some c) :
    ∃ d, c.methods.get? name = some d ∧ firstMethod name classes = some d := by
  have has : defines name c = true := List.find?_some first
  obtain ⟨d, found⟩ := Option.isSome_iff_exists.mp has
  exact ⟨d, found, by rw [firstMethod_eq_bind, first, Option.bind_some, found]⟩

/-- Two orders lead to the same method exactly if they lead to the same class. -/
theorem firstMethod_eq_iff (known : Known p.modules) (all : AllFiled p.modules)
    {classes others : List ClassInfo} (held : ∀ x ∈ classes, p.HoldsClass x)
    (held' : ∀ x ∈ others, p.HoldsClass x) :
    firstMethod name classes = firstMethod name others ↔
      definer? name classes = definer? name others := by
  constructor
  · intro same
    cases first : definer? name classes with
    | none =>
      rw [firstMethod_eq_bind, first, Option.bind_none] at same
      cases first' : definer? name others with
      | none => rfl
      | some b =>
        obtain ⟨d, -, found⟩ := firstMethod_of_definer? first'
        rw [← same] at found
        cases found
    | some a =>
      obtain ⟨d, own, found⟩ := firstMethod_of_definer? first
      cases first' : definer? name others with
      | none =>
        rw [same, firstMethod_eq_bind, first', Option.bind_none] at found
        cases found
      | some b =>
        obtain ⟨d', own', found'⟩ := firstMethod_of_definer? first'
        rw [same, found'] at found
        cases found
        rw [eq_of_method known all (held a (List.mem_of_find?_eq_some first))
          (held' b (List.mem_of_find?_eq_some first')) own own']
  · intro same
    rw [firstMethod_eq_bind, firstMethod_eq_bind, same]

/-- What a lookup along one order has to do with another order of the same classes. -/
theorem result_iff (known : Known p.modules) (all : AllFiled p.modules) {near order : List ClassInfo}
    (same : ∀ x, x ∈ near ↔ x ∈ order) (held : ∀ x ∈ order, p.HoldsClass x)
    {result : Except Fault (Option Definition)} (found : result = .ok (firstMethod name near)) :
    (result = .ok none ↔ ∀ x ∈ order, x.methods.get? name = none) ∧
      (result = .ok (firstMethod name order) ↔ definer? name near = definer? name order) := by
  subst found
  refine ⟨?_, ?_⟩
  · rw [Except.ok.injEq, firstMethod_eq_none]
    exact forall_congr' fun x => by rw [same x]
  · rw [Except.ok.injEq]
    exact firstMethod_eq_iff known all (fun x member => held x ((same x).mp member)) held

namespace Linearised.Facts

variable (facts : Facts p c mro)
  (apart : ∀ a b, p.HoldsClass a → p.HoldsClass b → sameClass a b = true → a = b)

include facts

theorem length_le : mro.length ≤ p.classCount := by
  rw [← length_allClasses]
  exact (facts.distinct.subperm fun x member => mem_allClasses.mpr (facts.held x member)).length_le

include apart in
theorem charted : Charted p.bases p.basesOrNone (· ∈ mro) where
  known := facts.known
  closed x member b isBase := List.mem_of_mem_tail (facts.above x member b isBase)
  apart a b inOrder inOrder' := apart a b (facts.held a inOrder) (facts.held b inOrder')

theorem mem_generations (start : c ∈ mro) (enough : mro.length ≤ n) (x : ClassInfo) :
    x ∈ nearestFirst p.basesOrNone n [c] ↔ x ∈ mro := by
  constructor
  · intro member
    have closed : ∀ a, a ∈ mro → ∀ b ∈ p.basesOrNone a, b ∈ mro := fun a inOrder b isBase =>
      List.mem_of_mem_tail (facts.above a inOrder b isBase)
    exact nearestFirst_inside closed n (by simpa using start) x member
  · exact fun member => mem_nearestFirst_mono enough (fun _ same => same) (facts.near x member)

theorem mem_generations_above (start : mro.head? = some c) (enough : mro.length ≤ n)
    (x : ClassInfo) : x ∈ nearestFirst p.basesOrNone n (p.basesOrNone c) ↔ x ∈ mro.tail := by
  obtain ⟨rest, rfl⟩ : ∃ rest, mro = c :: rest := ⟨_, List.eq_cons_of_mem_head? start⟩
  constructor
  · intro member
    have closed : ∀ a, a ∈ rest → ∀ b ∈ p.basesOrNone a, b ∈ rest := fun a inOrder =>
      facts.above a (List.mem_cons_of_mem _ inOrder)
    exact nearestFirst_inside closed n (facts.above c List.mem_cons_self) x member
  · intro member
    have other : x ≠ c := fun same => (List.nodup_cons.mp facts.distinct).1 (same ▸ member)
    rcases List.mem_append.mp (facts.near x (List.mem_cons_of_mem _ member)) with here | above
    · exact absurd (List.mem_singleton.mp here) other
    · exact mem_nearestFirst_mono (Nat.le_of_succ_le enough) (by simp) above

include apart in
theorem findMethod_eq (start : c ∈ mro) (enough : p.classCount < n) (name : String) :
    p.findMethod c name = .ok (firstMethod name (nearestFirst p.basesOrNone n [c])) := by
  have held : ∀ x ∈ [c], p.HoldsClass x := by simpa using facts.held c start
  rw [findMethod, ← searchLevels_eq_findFrom bases_keeps name held enough]
  exact (facts.charted apart).searchLevels_start name n (by simpa using start)

include apart in
theorem findInherited_eq (start : c ∈ mro) (enough : p.classCount < n) (name : String) :
    p.findInherited c name =
      .ok (firstMethod name (nearestFirst p.basesOrNone n (p.basesOrNone c))) := by
  have bases := facts.known c start
  rw [findInherited, bases]
  refine (searchLevels_eq_findFrom bases_keeps name (bases_keeps c _ bases) enough).symm.trans ?_
  exact (facts.charted apart).searchLevels_start name n fun b isBase =>
    List.mem_of_mem_tail (facts.above c start b isBase)

end Linearised.Facts

/--
A lookup goes by generations: it finds the method of the first class that has one among the class,
its bases, their bases and so on, and on the bases of the class that of the first among those. These
are the classes of the linearisation, with the class itself and without it. So a lookup finds no
method exactly if no class of the linearisation has one, and it finds the method that Python runs
exactly if the first class by generations that has one is also the first in the linearisation.
-/
theorem found_by_generations {t : Files.FileTree} {root packages : List String} {guesses : Bool}
    (loaded : (load t root packages guesses).1 = .ok p) (held : p.HoldsClass c)
    (linearised : p.Linearised c mro) (enough : p.classCount < n) (name : String) :
    ((∀ x, x ∈ nearestFirst p.basesOrNone n [c] ↔ x ∈ mro) ∧
      p.findMethod c name = .ok (firstMethod name (nearestFirst p.basesOrNone n [c])) ∧
      (p.findMethod c name = .ok none ↔ ∀ x ∈ mro, x.methods.get? name = none) ∧
      (p.findMethod c name = .ok (firstMethod name mro) ↔
        definer? name (nearestFirst p.basesOrNone n [c]) = definer? name mro)) ∧
    ((∀ x, x ∈ nearestFirst p.basesOrNone n (p.basesOrNone c) ↔ x ∈ mro.tail) ∧
      p.findInherited c name =
        .ok (firstMethod name (nearestFirst p.basesOrNone n (p.basesOrNone c))) ∧
      (p.findInherited c name = .ok none ↔ ∀ x ∈ mro.tail, x.methods.get? name = none) ∧
      (p.findInherited c name = .ok (firstMethod name mro.tail) ↔
        definer? name (nearestFirst p.basesOrNone n (p.basesOrNone c)) =
          definer? name mro.tail)) := by
  have known := load_known t root packages guesses p loaded
  have all := load_filed t root packages guesses p loaded
  have apart : ∀ a b, p.HoldsClass a → p.HoldsClass b → sameClass a b = true → a = b :=
    fun _ _ => eq_of_sameClass known all
  have facts := linearised.facts held apart
  have start := linearised.mem_self
  have long : mro.length ≤ n := Nat.le_trans facts.length_le (Nat.le_of_lt enough)
  have below := facts.mem_generations start long
  have above := facts.mem_generations_above linearised.head? long
  have found := facts.findMethod_eq apart start enough name
  have inherited := facts.findInherited_eq apart start enough name
  have heldAbove : ∀ x ∈ mro.tail, p.HoldsClass x := fun x member =>
    facts.held x (List.mem_of_mem_tail member)
  exact ⟨⟨below, found, result_iff known all below facts.held found⟩,
    above, inherited, result_iff known all above heldAbove inherited⟩

/-! ### Single inheritance -/

/-- Where no class has more than one base, the generations are the linearisation. -/
theorem nearestFirst_of_single (linearised : p.Linearised c mro)
    (single : ∀ x ∈ mro, (p.basesOrNone x).length ≤ 1) (enough : mro.length ≤ n) :
    nearestFirst p.basesOrNone n [c] = mro := by
  induction linearised generalizing n with
  | @of c bs rest orders found _ each merges ih =>
    have bases : p.basesOrNone c = bs := by simp only [basesOrNone, found]
    obtain ⟨n, rfl⟩ : ∃ k, n = k + 1 := ⟨n - 1, by grind⟩
    have few := single c List.mem_cons_self
    rw [nearestFirst, List.flatMap_singleton, bases]
    rw [bases] at few
    cases bs with
    | nil =>
      rw [merges.eq_of_none, nearestFirst_nil]
      rfl
    | cons b others =>
      obtain rfl : others = [] := List.length_eq_zero_iff.mp (by simpa using few)
      have own := each b List.mem_cons_self
      have order : rest = orders b := by
        have merges : Merges [orders b, [b]] rest := merges
        rw [List.eq_cons_of_mem_head? own.head?] at merges ⊢
        exact merges.eq_of_single
      subst order
      rw [ih b List.mem_cons_self (fun x member => single x (List.mem_cons_of_mem _ member))
        (Nat.le_of_succ_le_succ enough)]
      rfl

/-- Where no class has more than one base, lookups find the methods that Python runs. -/
theorem found_of_single {t : Files.FileTree} {root packages : List String} {guesses : Bool}
    (loaded : (load t root packages guesses).1 = .ok p) (held : p.HoldsClass c)
    (linearised : p.Linearised c mro) (single : ∀ x ∈ mro, (p.basesOrNone x).length ≤ 1)
    (name : String) :
    p.findMethod c name = .ok (firstMethod name mro) ∧
      p.findInherited c name = .ok (firstMethod name mro.tail) := by
  have known := load_known t root packages guesses p loaded
  have all := load_filed t root packages guesses p loaded
  have apart : ∀ a b, p.HoldsClass a → p.HoldsClass b → sameClass a b = true → a = b :=
    fun _ _ => eq_of_sameClass known all
  have facts := linearised.facts held apart
  have start := linearised.mem_self
  have enough : p.classCount < p.classCount + 1 := Nat.lt_succ_self _
  have long : mro.length ≤ p.classCount + 1 := Nat.le_succ_of_le facts.length_le
  have order := nearestFirst_of_single linearised single long
  have deeper := nearestFirst_of_single linearised single (Nat.le_succ_of_le long)
  rw [nearestFirst, List.flatMap_singleton] at deeper
  rw [facts.findMethod_eq apart start enough, facts.findInherited_eq apart start enough, order,
    ← deeper]
  exact ⟨rfl, rfl⟩

end Project

/-! ### Two bases, one of which inherits the method -/

namespace TwoBases

open SingleModule Project

def source : String :=
  "class A1:\n    def m(self):\n        pass\n\n\nclass A(A1):\n    pass\n\n\n" ++
    "class B:\n    def m(self):\n        pass\n\n\nclass D(A, B):\n    pass\n"

def methodAt (line : Nat) : Stmt :=
  .functionDef ⟨line, line + 1⟩ false "m" (.mk [] [.mk "self" none none] none [] none)
    [.pass ⟨line + 1, line + 1⟩] [] none

def body : List Stmt :=
  [.classDef ⟨1, 3⟩ "A1" [] [] [methodAt 2] [],
    .classDef ⟨6, 7⟩ "A" [.name "A1" .load] [] [.pass ⟨7, 7⟩] [],
    .classDef ⟨10, 12⟩ "B" [] [] [methodAt 11] [],
    .classDef ⟨15, 16⟩ "D" [.name "A" .load, .name "B" .load] [] [.pass ⟨16, 16⟩] []]

def first : Definition := ⟨⟨"m", 0, some "A1", "m", 2⟩, methodAt 2⟩
def second : Definition := ⟨⟨"m", 1, some "B", "m", 11⟩, methodAt 11⟩

def a1 : ClassInfo := ⟨"m", "A1", [], [methodAt 2], ⟨[("m", first)]⟩, .empty⟩
def a : ClassInfo := ⟨"m", "A", [.name "A1" .load], [.pass ⟨7, 7⟩], .empty, .empty⟩
def b : ClassInfo := ⟨"m", "B", [], [methodAt 11], ⟨[("m", second)]⟩, .empty⟩
def d : ClassInfo :=
  ⟨"m", "D", [.name "A" .load, .name "B" .load], [.pass ⟨16, 16⟩], .empty, .empty⟩

def module : Module :=
  ⟨unit source body, .empty, ⟨[("A1", a1), ("A", a), ("B", b), ("D", d)]⟩, .empty, [first, second]⟩

def project : Project := SingleModule.project module false

set_option maxRecDepth 10000 in
theorem load_project : (load (SingleModule.tree source) ["p"] [] false).1 = .ok project := by
  have parsed : parseModule source = .ok body := by rfl
  exact load_tree parsed (by cbv) false

/-- The order of a class without bases is the class alone. -/
theorem linearised_alone {c : ClassInfo} (found : project.bases c = .ok []) (none : c.bases = []) :
    project.Linearised c [c] :=
  .of (fun _ => []) found (by simp [none]) nofun (.done (by simp))

theorem linearised_a : project.Linearised a [a, a1] := by
  have bases : project.bases a = .ok [a1] := by cbv
  have ancestor : project.Linearised a1 [a1] := linearised_alone (by cbv) rfl
  exact .of (fun c => [c]) bases rfl (by simpa using ancestor) (.take rfl (.done (by decide)))

theorem linearised_d : project.Linearised d [d, a, a1, b] := by
  have bases : project.bases d = .ok [a, b] := by cbv
  have other : project.Linearised b [b] := linearised_alone (by cbv) rfl
  refine .of (fun c => if c.name == "A" then [a, a1] else [c]) bases rfl ?_
    (.take rfl (.take rfl (.take rfl (.done ?_))))
  · exact List.forall_mem_cons.mpr ⟨linearised_a, List.forall_mem_singleton.mpr other⟩
  · decide

theorem holds_d : project.HoldsClass d :=
  ⟨module, List.mem_singleton.mpr rfl, by simp [module, Dictionary.values]⟩

theorem base_overtaken :
    (load (SingleModule.tree source) ["p"] [] false).1 = .ok project ∧
      project.Linearised d [d, a, a1, b] ∧
      firstMethod "m" [d, a, a1, b] = some first ∧
      project.findMethod d "m" = .ok (some second) ∧ project.findInherited d "m" = .ok (some second) ∧
      first.routine ≠ second.routine := by
  refine ⟨load_project, linearised_d, by rfl, by cbv, by cbv, by decide⟩

theorem found_by_generations_twoBases :
    (load (SingleModule.tree source) ["p"] [] false).1 = .ok project ∧ project.HoldsClass d ∧
      project.Linearised d [d, a, a1, b] ∧ project.classCount < 5 ∧
      project.findMethod d "m" =
        .ok (firstMethod "m" (nearestFirst project.basesOrNone 5 [d])) ∧
      definer? "m" (nearestFirst project.basesOrNone 5 [d]) ≠ definer? "m" [d, a, a1, b] := by
  have enough : project.classCount < 5 := by decide
  obtain ⟨⟨-, found, -, agrees⟩, -⟩ :=
    found_by_generations load_project holds_d linearised_d enough "m"
  refine ⟨load_project, holds_d, linearised_d, enough, found, fun same => ?_⟩
  have answer := agrees.mpr same
  have actual : project.findMethod d "m" = .ok (some second) := by cbv
  rw [actual] at answer
  cases answer

end TwoBases

end ProbeWeave.Project
