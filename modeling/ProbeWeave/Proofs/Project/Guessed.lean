import ProbeWeave.Proofs.Project.LocalNames

/-! # Guessed methods

A call on something of which nothing is known can be guessed to run the only method of its name.
What a parameter or a local variable holds is not to be guessed about, and neither is what is taken
from there. The name that a receiver is taken from is looked for through members, subscripts and
calls. An awaited value, the operands of `and` and `or` and the branches of a conditional are not
looked through, so that what they are taken from does not keep the call from being guessed.
-/

set_option linter.dupNamespace false

namespace ProbeWeave

open Syntax ProbeWeave.Graph

namespace Syntax

/-- A value can be taken from what a name holds. The way there is branched if it leads through an
awaited value, an operand or a branch. -/
inductive TakenFrom : (branched : Bool) → Expr → String → Prop where
  | name {id : String} {use : NameUse} : TakenFrom false (.name id use) id
  | member {branched : Bool} {value : Expr} {id member : String}
      (taken : TakenFrom branched value id) : TakenFrom branched (.member value member) id
  | subscript {branched : Bool} {value index : Expr} {id : String}
      (taken : TakenFrom branched value id) : TakenFrom branched (.subscript value index) id
  | call {branched : Bool} {start : Position} {callee : Expr} {arguments : List Expr}
      {keywords : List Keyword} {id : String} (taken : TakenFrom branched callee id) :
      TakenFrom branched (.call start callee arguments keywords) id
  | await {branched : Bool} {value : Expr} {id : String}
      (taken : TakenFrom branched value id) : TakenFrom true (.await value) id
  | operand {branched : Bool} {op : BoolOp} {operands : List Expr} {e : Expr} {id : String}
      (member : e ∈ operands) (taken : TakenFrom branched e id) :
      TakenFrom true (.boolean op operands) id
  | body {branched : Bool} {test body otherwise : Expr} {id : String}
      (taken : TakenFrom branched body id) : TakenFrom true (.conditional test body otherwise) id
  | otherwise {branched : Bool} {test body otherwise : Expr} {id : String}
      (taken : TakenFrom branched otherwise id) :
      TakenFrom true (.conditional test body otherwise) id

namespace TakenFrom

variable {branched : Bool} {e : Expr} {id : String}

/-- The name that an expression starts from is found on the ways that do not branch. -/
theorem headName? (taken : TakenFrom branched e id) :
    e.headName? = if branched then none else some id := by
  induction taken with
  | name => rfl
  | member _ ih => exact ih
  | subscript _ ih => exact ih
  | call _ ih => exact ih
  | await => rfl
  | operand => rfl
  | body => rfl
  | otherwise => rfl

theorem of_headName? (head : e.headName? = some id) : TakenFrom false e id := by
  fun_induction Expr.headName? e with
  | case1 name use =>
    obtain rfl := Option.some.inj head
    exact .name
  | case2 value member ih => exact .member (ih head)
  | case3 value index ih => exact .subscript (ih head)
  | case4 start callee arguments keywords ih => exact .call (ih head)
  | case5 => cases head

theorem straight_iff : TakenFrom false e id ↔ e.headName? = some id :=
  ⟨TakenFrom.headName?, of_headName?⟩

/-- No way that does not branch starts where one that does ends. -/
theorem not_straight (taken : TakenFrom true e id) (other : String) : ¬ TakenFrom false e other := by
  rw [straight_iff, taken.headName?]
  exact Option.some_ne_none other ∘ Eq.symm

end TakenFrom

end Syntax

namespace Project

/-- A name is a parameter or another local variable of a routine. Imports also make one. -/
def LocalVariable (d : Definition) (id : String) : Prop :=
  LocalTo d id ∨ ¬ Declared d.body id ∧ Imported d.body id

variable {p : Project} {r : Routine} {caller : Caller} {scope : Scope} {value : Expr}
  {name : String}

/-- What is guessed is the only method of the name. It is not if the receiver starts from a name of
the scope other than the instance. -/
theorem Caller.guess?_eq_some {d : Definition} :
    caller.guess? scope value name = some d ↔
      caller.project.guesses = true ∧
      (∀ id, value.headName? = some id → some id ≠ scope.selfName →
        scope.names.contains id = false) ∧
      caller.project.methodsNamed name = [d] := by
  unfold guess?
  rcases caller.project.methodsNamed name with _ | ⟨only, _ | ⟨other, rest⟩⟩
  · simp
  · cases value.headName? with
    | none => simp
    | some head => simp [and_assoc]
  · simp

/-- What a routine binds is told from its own definition. -/
theorem Caller.scope_of_caller? (found : p.caller? r = some caller) :
    caller.scope = Scope.ofDefinition caller.definition := by
  simp only [Project.caller?, Option.bind_eq_bind, Option.bind_eq_some_iff] at found
  obtain ⟨_, -, _, -, found⟩ := found
  obtain rfl := Option.some.inj found
  rfl

/-- A call on something of which nothing is known runs what is guessed. -/
theorem Caller.target?_of_unknown {call : Call} (callee : call.callee = .member value name)
    (known : caller.scope = .ok scope) (unknown : caller.receiver? scope value = .ok none) :
    caller.target? call = .ok ((caller.guess? scope value name).map (·.routine)) := by
  simp only [target?, callee?, callee, known, unknown, bind, Except.bind, pure, Except.pure]

namespace Project

/-- The calls on something of which nothing is known.

Such a call runs a routine exactly if the project guesses, the receiver starts from no hidden name
but the instance and the routine is the only method of the name. So if the receiver is taken from a
local variable, the call runs nothing, unless the way there is branched or all bindings of the
variable are overlooked. On a branched way the names of the routine make no difference. -/
theorem target?_on_unknown (found : p.caller? r = some caller) {call : Call}
    (callee : call.callee = .member value name) (known : caller.scope = .ok scope)
    (unknown : caller.receiver? scope value = .ok none) :
    (∀ target, p.target? r call = .ok (some target) ↔
      p.guesses = true ∧
      (∀ id, TakenFrom false value id → some id ≠ scope.selfName → ¬ Hidden caller.definition id) ∧
      ∃ d, p.methodsNamed name = [d] ∧ d.routine = target) ∧
    (∀ branched id, TakenFrom branched value id → some id ≠ scope.selfName →
      LocalVariable caller.definition id →
        p.target? r call = .ok none ∨ branched = true ∨
          id ∉ caller.definition.parameters.all.map Parameter.name ∧
            ∀ form headed, BoundBy caller.definition.body form headed id →
              Overlooked form headed) ∧
    (∀ id, TakenFrom true value id → ∀ target, p.target? r call = .ok (some target) ↔
      p.guesses = true ∧ ∃ d, p.methodsNamed name = [d] ∧ d.routine = target) := by
  obtain ⟨rfl, -⟩ := Caller.atHome_of_caller? found
  have own : Scope.ofDefinition caller.definition = .ok scope :=
    (Caller.scope_of_caller? found).symm.trans known
  have told : caller.project.target? r call =
      .ok ((caller.guess? scope value name).map (·.routine)) := by
    rw [target?, found]
    exact caller.target?_of_unknown callee known unknown
  have runs (target : Routine) : caller.project.target? r call = .ok (some target) ↔
      caller.project.guesses = true ∧
      (∀ id, TakenFrom false value id → some id ≠ scope.selfName → ¬ Hidden caller.definition id) ∧
      ∃ d, caller.project.methodsNamed name = [d] ∧ d.routine = target := by
    simp only [told, Except.ok.injEq, Option.map_eq_some_iff, Caller.guess?_eq_some,
      TakenFrom.straight_iff, ← names_contains_iff own, Bool.not_eq_true, and_assoc,
      exists_and_left]
  refine ⟨runs, fun branched id taken other bound => ?_, fun id taken target => ?_⟩
  · rcases hidden_or_overlooked caller.definition id with hidden | overlooked
    · cases branched with
      | true => exact .inr (.inl rfl)
      | false =>
        refine .inl (told.trans ?_)
        cases guessed : caller.guess? scope value name with
        | none => rfl
        | some d =>
          obtain ⟨-, free, -⟩ := (runs d.routine).mp (by rw [told, guessed]; rfl)
          exact absurd hidden (free id taken other)
    · exact .inr (.inr overlooked)
  · rw [runs]
    have free (id : String) (straight : TakenFrom false value id) : False :=
      taken.not_straight id straight
    exact and_congr_right fun _ => and_iff_right fun id straight => (free id straight).elim

end Project

namespace Shelved

open SingleModule Project

def source : String :=
  "class Shelf:\n    def fetch(self):\n        pass\n\n\n" ++
    "def run(a, b):\n    (a or b).fetch()\n    a.box[0]().fetch()\n"

def either : Expr := .boolean .or [.name "a" .load, .name "b" .load]

def box : Call :=
  ⟨⟨8, 4⟩, .subscript (.member (.name "a" .load) "box") (.constant (.int 0)), [], []⟩

def boxed : Expr := box.toExpr

def call (line : Nat) (value : Expr) : Call :=
  ⟨⟨line, 4⟩, .member value "fetch", [], []⟩

def fetching : Stmt :=
  .functionDef ⟨2, 3⟩ false "fetch" (.mk [] [.mk "self" none none] none [] none) [.pass ⟨3, 3⟩] []
    none

def shelving : Stmt := .classDef ⟨1, 3⟩ "Shelf" [] [] [fetching] []

def running : Stmt :=
  .functionDef ⟨6, 8⟩ false "run" (.mk [] [.mk "a" none none, .mk "b" none none] none [] none)
    [.expression ⟨7, 7⟩ (call 7 either).toExpr, .expression ⟨8, 8⟩ (call 8 boxed).toExpr] [] none

def fetch : Definition := ⟨⟨"m", 0, some "Shelf", "fetch", 2⟩, fetching⟩
def run : Definition := ⟨⟨"m", 1, none, "run", 6⟩, running⟩

def shelf : ClassInfo := ⟨"m", "Shelf", [], [fetching], ⟨[("fetch", fetch)]⟩, .empty⟩

def module : Module :=
  ⟨unit source [shelving, running], ⟨[("run", run)]⟩, ⟨[("Shelf", shelf)]⟩, .empty, [fetch, run]⟩

def project : Project := SingleModule.project module true

/-- The function as the place that the calls are made from. -/
def runner : Caller := ⟨project, module, run, Scope.ofDefinition run, none⟩

theorem load_project : (load (SingleModule.tree source) ["p"] [] true).1 = .ok project := by
  have parsed : parseModule source = .ok [shelving, running] := by rfl
  exact load_tree parsed (by cbv) true

theorem caller?_run : project.caller? run.routine = some runner := by cbv

theorem scope_runner : runner.scope = .ok ⟨["a", "b"], .empty, none⟩ := by cbv

theorem localVariable_run : LocalVariable run "a" :=
  .inl ⟨not_declared_of_all (by cbv), .inl List.mem_cons_self⟩

theorem takenFrom_either : TakenFrom true either "a" :=
  .operand List.mem_cons_self .name

theorem takenFrom_boxed : TakenFrom false boxed "a" :=
  .call (.subscript (.member .name))

theorem receiver?_either : runner.receiver? ⟨["a", "b"], .empty, none⟩ either = .ok none := rfl

theorem receiver?_boxed : runner.receiver? ⟨["a", "b"], .empty, none⟩ boxed = .ok none := rfl

theorem either_fetch_guessed :
    (load (SingleModule.tree source) ["p"] [] true).1 = .ok project ∧
      project.caller? run.routine = some runner ∧ call 7 either ∈ calls run.body ∧
      runner.scope = .ok ⟨["a", "b"], .empty, none⟩ ∧
      runner.receiver? ⟨["a", "b"], .empty, none⟩ either = .ok none ∧
      TakenFrom true either "a" ∧ LocalVariable run "a" ∧
      project.target? run.routine (call 7 either) = .ok (some fetch.routine) := by
  have listed : calls run.body = [call 7 either, call 8 boxed, box] := by cbv
  refine ⟨load_project, caller?_run, ?_, scope_runner, receiver?_either, takenFrom_either,
    localVariable_run, by cbv⟩
  rw [listed]
  exact List.mem_cons_self

theorem target?_on_unknown_shelved :
    (load (SingleModule.tree source) ["p"] [] true).1 = .ok project ∧
      project.target? run.routine (call 8 boxed) = .ok none ∧
      project.target? run.routine (call 7 either) = .ok (some fetch.routine) := by
  have own : some "a" ≠ (none : Option String) := Option.some_ne_none "a"
  have callee (line : Nat) (value : Expr) : (call line value).callee = .member value "fetch" := rfl
  obtain ⟨-, spared, -⟩ :=
    target?_on_unknown caller?_run (callee 8 boxed) scope_runner receiver?_boxed
  obtain ⟨-, -, guessed⟩ :=
    target?_on_unknown caller?_run (callee 7 either) scope_runner receiver?_either
  have only : project.methodsNamed "fetch" = [fetch] := by cbv
  refine ⟨load_project, ?_, (guessed "a" takenFrom_either _).mpr ⟨rfl, fetch, only, rfl⟩⟩
  rcases spared false "a" takenFrom_boxed own localVariable_run with none | branched | ⟨free, -⟩
  · exact none
  · cases branched
  · exact absurd List.mem_cons_self free

end Shelved

end Project

end ProbeWeave
