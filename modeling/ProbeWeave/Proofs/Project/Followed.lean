import Mathlib
import ProbeWeave.Project.Origin

/-! # Names that are followed

A dotted name is looked up from its first parts on, and what a module imports under a name is looked
up in turn, with one bound for both. With a smaller bound a lookup may find nothing, but it does not
find anything else: what it finds is what the name leads to step by step, however many steps that
takes.
-/

set_option linter.dupNamespace false

namespace ProbeWeave.Project

open Syntax Outcome

namespace Project

variable {p : Project} {find : MethodSearch} {dotted owner name : String} {steps : Nat}

/-! ### One step -/

/-- What a member of something stands for, given a bound on the steps behind it. -/
def memberWithin (p : Project) (find : MethodSearch) (steps : Nat) (name : String) :
    Option Symbol → Except Fault (Option Symbol)
  | none => .ok none
  | some .foreign => .ok (some .foreign)
  | some (.function _) => .ok none
  | some (.cls c) => do return (← find c name).map .function
  | some (.module m) =>
    match m.functions.get? name, m.classes.get? name, m.imports.get? name with
    | some d, _, _ => .ok (some (.function d))
    | none, some c, _ => .ok (some (.cls c))
    | none, none, some target => p.lookupWithin find steps target
    | none, none, none => .ok none

theorem lookupWithin_module {m : Module} (there : p.modules.get? dotted = some m) :
    p.lookupWithin find (steps + 1) dotted = .ok (some (.module m)) := by
  simp only [lookupWithin, there]

theorem lookupWithin_bare (other : p.modules.get? dotted = none) (bare : splitLast? dotted = none) :
    p.lookupWithin find (steps + 1) dotted = .ok (some .foreign) := by
  simp only [lookupWithin, other, bare]

theorem lookupWithin_member (other : p.modules.get? dotted = none)
    (parts : splitLast? dotted = some (owner, name)) :
    p.lookupWithin find (steps + 1) dotted =
      p.lookupWithin find steps owner >>= p.memberWithin find steps name := by
  simp only [lookupWithin, other, parts]
  congr 1

/-- The bound has a part in what a member stands for only if the member is an import. -/
theorem memberWithin_cases (p : Project) (find : MethodSearch) (name : String) (front : Option Symbol) :
    (∃ answer, ∀ steps, p.memberWithin find steps name front = answer) ∨
      ∃ target, ∀ steps, p.memberWithin find steps name front = p.lookupWithin find steps target := by
  match front with
  | none | some .foreign | some (.function _) | some (.cls _) => exact .inl ⟨_, fun _ => rfl⟩
  | some (.module m) =>
    simp only [memberWithin]
    split
    · exact .inl ⟨_, fun _ => rfl⟩
    · exact .inl ⟨_, fun _ => rfl⟩
    · exact .inr ⟨_, fun _ => rfl⟩
    · exact .inl ⟨_, fun _ => rfl⟩

/-! ### Smaller bounds -/

/-- A smaller bound makes a lookup find nothing, or it makes no difference. -/
theorem lookupWithin_of_le {few many : Nat} {found : Option Symbol} (fewer : few ≤ many)
    (success : p.lookupWithin find many dotted = .ok found) :
    p.lookupWithin find few dotted = .ok none ∨ p.lookupWithin find few dotted = .ok found := by
  induction few generalizing many dotted found with
  | zero => exact .inl rfl
  | succ few ih =>
    obtain ⟨many, rfl⟩ : ∃ n, many = n + 1 := ⟨many - 1, by omega⟩
    replace fewer := Nat.le_of_succ_le_succ fewer
    cases there : p.modules.get? dotted with
    | some m =>
      rw [lookupWithin_module there] at success ⊢
      exact .inr success
    | none =>
      cases parts : splitLast? dotted with
      | none =>
        rw [lookupWithin_bare there parts] at success ⊢
        exact .inr success
      | some pair =>
        obtain ⟨owner, name⟩ := pair
        rw [lookupWithin_member there parts] at success ⊢
        obtain ⟨front, reached, member⟩ := bind_eq_ok.mp success
        rcases ih fewer reached with lost | reached
        · rw [lost]
          exact .inl rfl
        · rw [reached]
          show p.memberWithin find few name front = _ ∨ p.memberWithin find few name front = _
          rcases p.memberWithin_cases find name front with ⟨answer, same⟩ | ⟨target, same⟩
          · rw [same] at member ⊢
            exact .inr member
          · rw [same] at member ⊢
            exact ih fewer member

/-! ### What a name leads to -/

/--
Whether a dotted name leads to something of the project: to the module of that name, or else from
what its front part leads to, a module or a class, to a member of that. In a module functions come
before classes and classes before imports, which lead to what their target does.
-/
inductive Leads (p : Project) (find : MethodSearch) : String → Symbol → Prop where
  | module {dotted : String} {m : Module} :
      p.modules.get? dotted = some m → Leads p find dotted (.module m)
  | function {dotted owner name : String} {m : Module} {d : Definition} :
      p.modules.get? dotted = none → splitLast? dotted = some (owner, name) →
      Leads p find owner (.module m) → m.functions.get? name = some d →
      Leads p find dotted (.function d)
  | cls {dotted owner name : String} {m : Module} {c : ClassInfo} :
      p.modules.get? dotted = none → splitLast? dotted = some (owner, name) →
      Leads p find owner (.module m) → m.functions.get? name = none →
      m.classes.get? name = some c → Leads p find dotted (.cls c)
  | imported {dotted owner name target : String} {m : Module} {s : Symbol} :
      p.modules.get? dotted = none → splitLast? dotted = some (owner, name) →
      Leads p find owner (.module m) → m.functions.get? name = none →
      m.classes.get? name = none → m.imports.get? name = some target →
      Leads p find target s → Leads p find dotted s
  | method {dotted owner name : String} {c : ClassInfo} {d : Definition} :
      p.modules.get? dotted = none → splitLast? dotted = some (owner, name) →
      Leads p find owner (.cls c) → find c name = .ok (some d) →
      Leads p find dotted (.function d)

/-- What a lookup finds, unless it is foreign, is what the name leads to. -/
theorem leads_of_lookupWithin {s : Symbol} (own : s ≠ .foreign)
    (success : p.lookupWithin find steps dotted = .ok (some s)) : p.Leads find dotted s := by
  induction steps generalizing dotted s with
  | zero => cases success
  | succ steps ih =>
    cases there : p.modules.get? dotted with
    | some m =>
      rw [lookupWithin_module there] at success
      cases success
      exact .module there
    | none =>
      cases parts : splitLast? dotted with
      | none =>
        rw [lookupWithin_bare there parts] at success
        cases success
        exact absurd rfl own
      | some pair =>
        obtain ⟨owner, name⟩ := pair
        rw [lookupWithin_member there parts] at success
        obtain ⟨front, reached, member⟩ := bind_eq_ok.mp success
        match front with
        | none | some (.function _) => cases member
        | some .foreign =>
          cases member
          exact absurd rfl own
        | some (.cls c) =>
          obtain ⟨method, found, same⟩ := bind_eq_ok.mp member
          obtain ⟨d, rfl, rfl⟩ := Option.map_eq_some_iff.mp (pure_eq_ok.mp same)
          exact .method there parts (ih nofun reached) found
        | some (.module m) =>
          have inside : p.Leads find owner (.module m) := ih nofun reached
          simp only [memberWithin] at member
          split at member
          · rename_i inFunctions
            cases member
            exact .function there parts inside inFunctions
          · rename_i noFunction inClasses
            cases member
            exact .cls there parts inside noFunction inClasses
          · rename_i noFunction noClass inImports
            exact .imported there parts inside noFunction noClass inImports (ih own member)
          · cases member

/-- What a name leads to is found with every bound that is large enough. -/
theorem Leads.lookupWithin {s : Symbol} (leads : p.Leads find dotted s) :
    ∃ enough, ∀ steps, enough ≤ steps → p.lookupWithin find steps dotted = .ok (some s) := by
  have behind {n : Nat} {P : Nat → Prop} (holds : ∀ steps, n ≤ steps → P (steps + 1)) :
      ∃ enough, ∀ steps, enough ≤ steps → P steps :=
    ⟨n + 1, fun steps above => by
      obtain ⟨k, rfl⟩ : ∃ k, steps = k + 1 := ⟨steps - 1, by omega⟩
      exact holds k (Nat.le_of_succ_le_succ above)⟩
  induction leads with
  | module there => exact behind (n := 0) fun steps _ => lookupWithin_module there
  | function other parts _ found ih =>
    obtain ⟨n, reached⟩ := ih
    refine behind (n := n) fun steps above => ?_
    rw [lookupWithin_member other parts, reached steps above]
    simp only [bind, Except.bind, memberWithin, found]
  | cls other parts _ noFunction found ih =>
    obtain ⟨n, reached⟩ := ih
    refine behind (n := n) fun steps above => ?_
    rw [lookupWithin_member other parts, reached steps above]
    simp only [bind, Except.bind, memberWithin, noFunction, found]
  | imported other parts _ noFunction noClass found _ ih further =>
    obtain ⟨n, reached⟩ := ih
    obtain ⟨n', later⟩ := further
    refine behind (n := max n n') fun steps above => ?_
    rw [lookupWithin_member other parts, reached steps (by omega)]
    simp only [bind, Except.bind, memberWithin, noFunction, noClass, found]
    exact later steps (by omega)
  | method other parts _ found ih =>
    obtain ⟨n, reached⟩ := ih
    refine behind (n := n) fun steps above => ?_
    rw [lookupWithin_member other parts, reached steps above]
    simp only [bind, Except.bind, memberWithin, found]
    rfl

/-- The bound on a lookup can only make it give up. Whatever comes of a lookup, with a smaller bound
the same comes of it, or nothing is found. Something of the project is found with some bound exactly
if the name leads to it, and then it is found with every bound that is large enough. -/
theorem bound_gives_up (p : Project) (find : MethodSearch) (dotted : String) :
    (∀ few many found, few ≤ many → p.lookupWithin find many dotted = .ok found →
      p.lookupWithin find few dotted = .ok none ∨ p.lookupWithin find few dotted = .ok found) ∧
    ∀ s, s ≠ .foreign →
      ((∃ steps, p.lookupWithin find steps dotted = .ok (some s)) ↔ p.Leads find dotted s) ∧
      (p.Leads find dotted s → ∃ enough, ∀ steps, enough ≤ steps →
        p.lookupWithin find steps dotted = .ok (some s)) := by
  refine ⟨fun _ _ _ fewer success => lookupWithin_of_le fewer success, fun s own => ⟨⟨?_, ?_⟩, ?_⟩⟩
  · rintro ⟨steps, success⟩
    exact leads_of_lookupWithin own success
  · intro leads
    obtain ⟨enough, found⟩ := leads.lookupWithin
    exact ⟨enough, found enough (Nat.le_refl _)⟩
  · exact Leads.lookupWithin

end Project

/-! ### A function that is imported, and a name that goes around in circles -/

namespace ReExports

def function : Stmt := .functionDef ⟨1, 2⟩ false "f" default [.pass ⟨2, 2⟩] [] none

/-- An import of a name from a module. -/
def imported (module name : String) : Stmt := .importsFrom ⟨1, 1⟩ (some module) [⟨name, none⟩] 0

/-- A module of one statement. -/
def unit (name source : String) (statement : Stmt) : SourceUnit where
  path := .absolute ["p", name ++ ".py"]
  relative := ⟨0, [name ++ ".py"]⟩
  name := name
  isPackage := false
  source := source
  body := [statement]

def project : Project where
  root := .absolute ["p"]
  modules := ⟨[("a", (unit "a" "from b import f\n" (imported "b" "f")).index),
    ("b", (unit "b" "def f():\n    pass\n" function).index),
    ("c", (unit "c" "from d import g\n" (imported "d" "g")).index),
    ("d", (unit "d" "from c import g\n" (imported "c" "g")).index)]⟩
  packages := []
  guesses := false

def f : Definition := ⟨⟨"b", 0, none, "f", 1⟩, function⟩

theorem bound_gives_up_reExports :
    project.lookupWithin project.findMethod 2 "a.f" = .ok none ∧
      project.lookupWithin project.findMethod 3 "a.f" = .ok (some (.function f)) ∧
      (∀ few ≤ 3, project.lookupWithin project.findMethod few "a.f" = .ok none ∨
        project.lookupWithin project.findMethod few "a.f" = .ok (some (.function f))) ∧
      project.Leads project.findMethod "a.f" (.function f) ∧
      project.lookupDotted project.findMethod "c.g" = .ok none := by
  have found : project.lookupWithin project.findMethod 3 "a.f" = .ok (some (.function f)) := by cbv
  have own : Symbol.function f ≠ .foreign := by
    intro same
    cases same
  obtain ⟨smaller, leads⟩ := project.bound_gives_up project.findMethod "a.f"
  exact ⟨by cbv, found, fun few fewer => smaller few 3 _ fewer found,
    (leads (.function f) own).1.mp ⟨3, found⟩, by cbv⟩

end ReExports

end ProbeWeave.Project
