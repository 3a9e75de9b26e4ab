import ProbeWeave.Project.Origin
import ProbeWeave.Proofs.Evaluation.Certain
import ProbeWeave.Proofs.Project.SingleModule

/-! # Names that a routine binds

A name is local to a function if some part of its scope binds it and none declares it to be global.
To the scope of a function belong the statements of its body and all below them, apart from the
insides of other functions and classes; their heads, with decorators, default values, annotations
and bases, belong to it as well. A comprehension keeps its targets to itself, but a name assigned in
one of its expressions belongs to the function around it.
-/

set_option linter.dupNamespace false

namespace ProbeWeave

open Syntax ProbeWeave.Graph

namespace Syntax

/-- How a name is bound, other than as a parameter or by an import. -/
inductive BindingForm where
  /-- A target of an assignment, a loop or a context manager. -/
  | target
  /-- The name of an assignment expression. -/
  | walrus
  /-- A function or class. -/
  | definition
  /-- Also a name that is deleted is local. -/
  | deletion
  /-- The name of a caught exception. -/
  | handler
  /-- A name in a pattern. -/
  | capture
  deriving DecidableEq, Repr

namespace Node

/-- The names that a node binds, and how. -/
def bindings : Node → List (BindingForm × String)
  | .expr (.name id .store) => [(.target, id)]
  | .expr (.name id .delete) => [(.deletion, id)]
  | .expr (.named (.name id .store) _) => [(.walrus, id)]
  | .stmt (.functionDef _ _ id ..) | .stmt (.classDef _ id ..) => [(.definition, id)]
  | .handler (.mk _ (some id) _) => [(.handler, id)]
  | .pattern (.bind _ (some id)) | .pattern (.star (some id)) | .pattern (.mapping _ _ (some id)) =>
    [(.capture, id)]
  | _ => []

/-- The names that a node imports. -/
def importedNames : Node → List String
  | .stmt (.imports _ names) =>
    names.map fun a => a.boundAs.getD ((a.name.splitOn ".").headD "")
  | .stmt (.importsFrom _ _ names _) => names.map fun a => a.boundAs.getD a.name
  | _ => []

/-- Whether a node declares that a name is not local. -/
def declares (id : String) : Node → Bool
  | .stmt (.globals _ names) | .stmt (.nonlocals _ names) => names.contains id
  | _ => false

/-- The parts of a node that is no scope of its own. A name in brackets that is annotated and given
no value is none. -/
def scopeParts : Node → List Node
  | .stmt (.annotated _ (.name ..) type none false) => [.expr type]
  | n => n.children

/-- The parts of a nested scope that belong to the scope around it. -/
def headParts : Node → List Node
  | .stmt (.functionDef _ _ _ ps _ decorators returns) =>
    .parameters ps :: (decorators.map (.expr ·.expression) ++ returns.toList.map .expr)
  | .stmt (.classDef _ _ bases keywords _ decorators) =>
    bases.map .expr ++ keywords.map .keyword ++ decorators.map (.expr ·.expression)
  | .expr (.lambda ps _) => [.parameters ps]
  | _ => []

/-- Whether a node is a comprehension or a generator. -/
def isComprehension : Node → Bool
  | .expr e => e.isComprehension
  | _ => false

theorem mem_preorder_of_parent {m n part : Node} (member : n ∈ m.preorder)
    (child : part ∈ n.children) : part ∈ m.preorder := by
  induction m using preorder.induct with
  | case1 m ih =>
    rw [preorder_eq] at member
    rcases List.mem_cons.mp member with rfl | below
    · exact mem_preorder_of_child child (mem_preorder_self part)
    · obtain ⟨c, inside, below⟩ := List.mem_flatMap.mp below
      exact mem_preorder_of_child inside (ih c inside below)

theorem mem_scopeNodes_self (n : Node) : n ∈ n.scopeNodes := by
  rw [scopeNodes_eq]
  exact List.mem_cons_self

/-- The parts of a node of a scope are nodes of the scope, unless it opens another one. -/
theorem mem_scopeNodes_of_child {m n part : Node} (member : n ∈ m.scopeNodes)
    (flat : n.opensScope = false) (child : part ∈ n.children) : part ∈ m.scopeNodes := by
  induction m using scopeNodes.induct with
  | case1 m ih =>
    rw [scopeNodes_eq] at member ⊢
    refine List.mem_cons_of_mem _ ?_
    rcases List.mem_cons.mp member with rfl | below
    · rw [flat]
      exact List.mem_flatMap.mpr ⟨part, child, mem_scopeNodes_self part⟩
    · split at below
      · cases below
      · rename_i shut
        obtain ⟨c, inside, below⟩ := List.mem_flatMap.mp below
        rw [if_neg shut]
        exact List.mem_flatMap.mpr ⟨c, inside, ih c inside below⟩

/-- The part that is no part of the scope is the name of a bare annotation. -/
theorem mem_scopeParts_or_bare {n part : Node} (child : part ∈ n.children) :
    part ∈ n.scopeParts ∨
      ∃ lines id use type, n = .stmt (.annotated lines (.name id use) type none false) ∧
        part = .expr (.name id use) := by
  unfold scopeParts
  split
  · rename_i lines id use type
    rcases List.mem_pair.mp child with rfl | rfl
    · exact .inr ⟨lines, id, use, type, rfl, rfl⟩
    · exact .inl (List.mem_singleton.mpr rfl)
  · exact .inl child

theorem scopeParts_subset (n : Node) : ∀ part ∈ n.scopeParts, part ∈ n.children := by
  unfold scopeParts
  split
  · simp [children, Stmt.children]
  · exact fun _ member => member

theorem headParts_subset (n : Node) : ∀ part ∈ n.headParts, part ∈ n.children := by
  unfold headParts
  split <;> simp only [children, Stmt.children, Expr.children] <;> grind

end Node

/-- The nodes of the scope of some statements, each with whether a comprehension is around it and
whether it is in the head of another scope. -/
inductive InScope (body : List Stmt) : (inner headed : Bool) → Node → Prop where
  | stmt {s : Stmt} (member : s ∈ body) : InScope body false false (.stmt s)
  | part {inner headed : Bool} {n part : Node} (inside : InScope body inner headed n)
      (flat : n.opensScope = false) (member : part ∈ n.scopeParts) :
      InScope body (inner || n.isComprehension) headed part
  | head {inner headed : Bool} {n part : Node} (inside : InScope body inner headed n)
      (member : part ∈ n.headParts) : InScope body inner true part

/-- A name is bound in a form, in the head of another scope or not. Comprehensions keep their
targets. -/
def BoundBy (body : List Stmt) (form : BindingForm) (headed : Bool) (id : String) : Prop :=
  ∃ inner n, InScope body inner headed n ∧ (form, id) ∈ n.bindings ∧ ¬(inner = true ∧ form = .target)

/-- A name is imported. -/
def Imported (body : List Stmt) (id : String) : Prop :=
  ∃ inner headed n, InScope body inner headed n ∧ id ∈ n.importedNames

/-- A name is declared not to be local. -/
def Declared (body : List Stmt) (id : String) : Prop :=
  ∃ inner headed n, InScope body inner headed n ∧ n.declares id = true

variable {body : List Stmt} {inner headed : Bool} {n : Node} {id : String}

/-- Outside of heads, what belongs to a scope is among the nodes listed for it. -/
theorem InScope.mem_scopeNodes (inside : InScope body inner headed n) (free : headed = false) :
    n ∈ scopeNodes body := by
  induction inside with
  | stmt member => exact List.mem_flatMap.mpr ⟨_, member, Node.mem_scopeNodes_self _⟩
  | part _ flat member ih =>
    obtain ⟨s, inBody, found⟩ := List.mem_flatMap.mp (ih free)
    exact List.mem_flatMap.mpr
      ⟨s, inBody, Node.mem_scopeNodes_of_child found flat (Node.scopeParts_subset _ _ member)⟩
  | head => cases free

theorem InScope.mem_preorder (inside : InScope body inner headed n) :
    ∃ s ∈ body, n ∈ (Node.stmt s).preorder := by
  induction inside with
  | stmt member => exact ⟨_, member, Node.mem_preorder_self _⟩
  | part _ _ member ih =>
    obtain ⟨s, inBody, found⟩ := ih
    exact ⟨s, inBody, Node.mem_preorder_of_parent found (Node.scopeParts_subset _ _ member)⟩
  | head _ member ih =>
    obtain ⟨s, inBody, found⟩ := ih
    exact ⟨s, inBody, Node.mem_preorder_of_parent found (Node.headParts_subset _ _ member)⟩

/-- A name that no node below the statements declares is not declared in the scope. -/
theorem not_declared_of_all
    (free : (body.all fun s => (Node.stmt s).preorder.all fun n => !n.declares id) = true) :
    ¬ Declared body id := by
  rintro ⟨_, _, n, inside, declared⟩
  obtain ⟨s, inBody, member⟩ := inside.mem_preorder
  have none := List.all_eq_true.mp (List.all_eq_true.mp free s inBody) n member
  simp [declared] at none

/-- A node of a scope is the name of a bare annotation. -/
def BareTarget (body : List Stmt) (n : Node) : Prop :=
  ∃ inner lines id use type,
    InScope body inner false (.stmt (.annotated lines (.name id use) type none false)) ∧
      n = .expr (.name id use)

/-- The nodes listed for a scope belong to it, but for the names of bare annotations. -/
theorem Node.inScope_of_mem {m : Node} (inside : InScope body inner false m)
    (member : n ∈ m.scopeNodes) : (∃ inner, InScope body inner false n) ∨ BareTarget body n := by
  induction m using scopeNodes.induct generalizing inner with
  | case1 m ih =>
    rw [scopeNodes_eq] at member
    rcases List.mem_cons.mp member with rfl | below
    · exact .inl ⟨inner, inside⟩
    · split at below
      · cases below
      · rename_i shut
        obtain ⟨part, child, below⟩ := List.mem_flatMap.mp below
        rcases mem_scopeParts_or_bare child with proper | ⟨lines, id, use, type, rfl, rfl⟩
        · exact ih part child (inside.part (by simpa using shut) proper) below
        · -- A name has no parts, so that the node is the name itself.
          obtain rfl : n = .expr (.name id use) := by
            simpa [scopeNodes_eq, children, Expr.children] using below
          exact .inr ⟨inner, lines, id, use, type, inside, rfl⟩

theorem mem_scopeNodes_iff :
    n ∈ scopeNodes body ↔ (∃ inner, InScope body inner false n) ∨ BareTarget body n := by
  constructor
  · intro member
    obtain ⟨s, inBody, member⟩ := List.mem_flatMap.mp member
    exact Node.inScope_of_mem (.stmt inBody) member
  · rintro (⟨_, inside⟩ | ⟨_, lines, id, use, type, inside, rfl⟩)
    · exact inside.mem_scopeNodes rfl
    · obtain ⟨s, inBody, found⟩ := List.mem_flatMap.mp (inside.mem_scopeNodes rfl)
      refine List.mem_flatMap.mpr ⟨s, inBody, Node.mem_scopeNodes_of_child found rfl ?_⟩
      exact List.mem_cons_self

end Syntax

namespace Project

/-- A name is local to a routine: a parameter, or bound in its scope and not declared elsewhere. -/
def LocalTo (d : Definition) (id : String) : Prop :=
  ¬ Declared d.body id ∧
    (id ∈ d.parameters.all.map Parameter.name ∨ ∃ form headed, BoundBy d.body form headed id)

/-- A name is hidden from the calls of a routine: a parameter, the name of a definition, or a target
anywhere in the scope but in the head of another one. Also the targets of comprehensions and bare
annotations count. -/
def Hidden (d : Definition) (id : String) : Prop :=
  id ∈ d.parameters.all.map Parameter.name ∨
    ∃ n, ((∃ inner, InScope d.body inner false n) ∨ BareTarget d.body n) ∧
      ∃ form ∈ [BindingForm.target, .definition], (form, id) ∈ n.bindings

/-- The bindings that hide no name. -/
def Overlooked (form : BindingForm) (headed : Bool) : Prop :=
  headed = true ∨ form ∈ [BindingForm.deletion, .handler, .capture]

/-- The routine that a symbol is. -/
def routineOf : Option Symbol → Option Routine
  | some (.function d) => some d.routine
  | _ => none

variable {d : Definition} {scope : Scope} {form : BindingForm} {headed : Bool} {id : String}

/-- What the model takes for bound names are the targets and the names of definitions. -/
theorem Scope.mem_boundNames_iff {n : Node} {id : String} :
    id ∈ Scope.boundNames n ↔
      ∃ form ∈ [BindingForm.target, .definition], (form, id) ∈ n.bindings := by
  fun_cases Node.bindings n <;> simp [Scope.boundNames]

/-- The names of a scope are the hidden ones. -/
theorem names_contains_iff (known : Scope.ofDefinition d = .ok scope) :
    scope.names.contains id = true ↔ Hidden d id := by
  simp only [Scope.ofDefinition, bind, Except.bind, pure, Except.pure] at known
  split at known
  · cases known
  · split at known
    · cases known
    · obtain rfl := Except.ok.inj known
      simp only [List.contains_iff_mem, List.mem_append, List.mem_flatMap, mem_scopeNodes_iff,
        Scope.mem_boundNames_iff, Hidden]

/-- A name that is the target of an assignment expression is a target. -/
theorem hidden_of_bound (bound : BoundBy d.body form false id)
    (seen : form ∉ [BindingForm.deletion, .handler, .capture]) : Hidden d id := by
  obtain ⟨inner, n, inside, binds, -⟩ := bound
  refine .inr ?_
  cases form with
  | target => exact ⟨n, .inl ⟨inner, inside⟩, .target, by simp, binds⟩
  | definition => exact ⟨n, .inl ⟨inner, inside⟩, .definition, by simp, binds⟩
  | walrus =>
    obtain ⟨value, rfl⟩ : ∃ value, n = .expr (.named (.name id .store) value) := by
      revert binds
      fun_cases Node.bindings n <;> simp
      grind
    have target : InScope d.body _ false (.expr (.name id .store)) :=
      inside.part rfl List.mem_cons_self
    exact ⟨_, .inl ⟨_, target⟩, .target, by simp, List.mem_singleton.mpr rfl⟩
  | deletion => simp at seen
  | handler => simp at seen
  | capture => simp at seen

/-- What is not hidden is no parameter, and all its bindings are overlooked. -/
theorem hidden_or_overlooked (d : Definition) (id : String) :
    Hidden d id ∨ id ∉ d.parameters.all.map Parameter.name ∧
      ∀ form headed, BoundBy d.body form headed id → Overlooked form headed := by
  by_cases hidden : Hidden d id
  · exact .inl hidden
  · refine .inr ⟨fun parameter => hidden (.inl parameter), fun form headed bound => ?_⟩
    cases headed with
    | true => exact .inl rfl
    | false => exact .inr (by_contra fun seen => hidden (hidden_of_bound bound seen))

namespace Caller

/-- A call through a name runs nothing if the name is in the scope; otherwise the module tells. -/
theorem target?_of_name (caller : Caller) {call : Call} {use : NameUse}
    (callee : call.callee = .name id use) :
    caller.target? call = caller.scope.bind fun scope =>
      if scope.names.contains id then .ok none
      else (caller.project.resolveName caller.project.findMethod caller.module id).map routineOf := by
  simp only [target?, callee?, callee, bind, Except.bind, pure, Except.pure]
  cases caller.scope with
  | error fault => rfl
  | ok scope =>
    dsimp only
    cases scope.names.contains id with
    | true => rfl
    | false =>
      cases caller.project.resolveName caller.project.findMethod caller.module id with
      | error fault => rfl
      | ok found => rcases found with _ | _ | _ | _ | _ <;> rfl

end Caller

namespace Project

variable {p : Project} {r : Routine} {caller : Caller}

/-- A call through a name that is local to the routine runs nothing, unless all bindings of the
name are overlooked. Hidden names run nothing, and what is not hidden the module tells, whether the
name is local or not. -/
theorem target?_through_name (found : p.caller? r = some caller) {call : Call} {id : String}
    {use : NameUse} (callee : call.callee = .name id use) :
    (LocalTo caller.definition id →
      p.target? r call = caller.scope.map (fun _ => none) ∨
        id ∉ caller.definition.parameters.all.map Parameter.name ∧
          (∃ form headed, BoundBy caller.definition.body form headed id) ∧
          ∀ form headed, BoundBy caller.definition.body form headed id → Overlooked form headed) ∧
    (Hidden caller.definition id → p.target? r call = caller.scope.map fun _ => none) ∧
    (¬ Hidden caller.definition id →
      p.target? r call = caller.scope.bind fun _ =>
        (p.resolveName p.findMethod caller.module id).map routineOf) := by
  have own : caller.scope = Scope.ofDefinition caller.definition ∧ caller.project = p := by
    simp only [caller?, Option.bind_eq_bind, Option.bind_eq_some_iff] at found
    obtain ⟨_, -, _, -, found⟩ := found
    obtain rfl := Option.some.inj found
    exact ⟨rfl, rfl⟩
  obtain ⟨own, rfl⟩ := own
  have told := caller.target?_of_name callee
  have same : caller.project.target? r call = caller.target? call := by rw [target?, found]
  have hides (hidden : Hidden caller.definition id) :
      caller.project.target? r call = caller.scope.map fun _ => none := by
    rw [same, told]
    cases known : caller.scope with
    | error fault => rfl
    | ok scope => exact if_pos ((names_contains_iff (own ▸ known)).mpr hidden)
  refine ⟨fun bound => ?_, hides, fun visible => ?_⟩
  · rcases hidden_or_overlooked caller.definition id with hidden | ⟨free, overlooked⟩
    · exact .inl (hides hidden)
    · exact .inr ⟨free, bound.2.resolve_left free, overlooked⟩
  · rw [same, told]
    cases known : caller.scope with
    | error fault => rfl
    | ok scope => exact if_neg (mt (names_contains_iff (own ▸ known)).mp visible)

end Project

namespace CaughtHelper

open SingleModule Project

def source : String :=
  "def helper():\n    pass\n\n\ndef caught(f):\n    try:\n        f()\n" ++
    "    except Exception as helper:\n        helper()\n\n\n" ++
    "def captured(f):\n    match f:\n        case [*helper]:\n            helper()\n"

def call (line column : Nat) (id : String) : Call :=
  ⟨⟨line, column⟩, .name id .load, [], []⟩

def calling (line column : Nat) (id : String) : Stmt :=
  .expression ⟨line, line⟩ (call line column id).toExpr

def catching : Stmt :=
  .functionDef ⟨5, 9⟩ false "caught" (.mk [] [.mk "f" none none] none [] none)
    [.tryBlock ⟨6, 9⟩ false [calling 7 8 "f"]
      [.mk (some (.name "Exception" .load)) (some "helper") [calling 9 8 "helper"]] [] []] [] none

def matching : Stmt :=
  .functionDef ⟨12, 15⟩ false "captured" (.mk [] [.mk "f" none none] none [] none)
    [.matchBlock ⟨13, 15⟩ (.name "f" .load)
      [.mk (.sequence [.star (some "helper")]) none [calling 15 12 "helper"]]] [] none

def helping : Stmt :=
  .functionDef ⟨1, 2⟩ false "helper" (.mk [] [] none [] none) [.pass ⟨2, 2⟩] [] none

def helper : Definition := ⟨⟨"m", 0, none, "helper", 1⟩, helping⟩
def caught : Definition := ⟨⟨"m", 1, none, "caught", 5⟩, catching⟩
def captured : Definition := ⟨⟨"m", 2, none, "captured", 12⟩, matching⟩

def module : Module :=
  ⟨unit source [helping, catching, matching],
    ⟨[("helper", helper), ("caught", caught), ("captured", captured)]⟩, .empty, .empty,
    [helper, caught, captured]⟩

def project : Project := SingleModule.project module false

set_option maxRecDepth 10000 in
theorem load_project : (load (SingleModule.tree source) ["p"] [] false).1 = .ok project := by
  have parsed : parseModule source = .ok [helping, catching, matching] := by rfl
  exact load_tree parsed (by cbv) false

theorem scope_caught : Scope.ofDefinition caught = .ok ⟨["f"], .empty, none⟩ := by cbv

/-- The handler is a part of the only statement. -/
theorem local_caught : LocalTo caught "helper" := by
  have try_in : InScope caught.body false false (.stmt _) := .stmt List.mem_cons_self
  have handler : InScope caught.body false false
      (.handler (.mk (some (.name "Exception" .load)) (some "helper") [calling 9 8 "helper"])) :=
    try_in.part rfl (by simp [Node.scopeParts, Node.children, Stmt.children])
  exact ⟨not_declared_of_all (by cbv), .inr ⟨.handler, false, _, _, handler, by
    simp [Node.bindings]⟩⟩

theorem local_captured : LocalTo captured "helper" := by
  have match_in : InScope captured.body false false (.stmt _) := .stmt List.mem_cons_self
  have case_in : InScope captured.body false false (.matchCase
      (.mk (.sequence [.star (some "helper")]) none [calling 15 12 "helper"])) :=
    match_in.part rfl (by simp [Node.scopeParts, Node.children, Stmt.children])
  have pattern : InScope captured.body false false (.pattern (.sequence [.star (some "helper")])) :=
    case_in.part rfl List.mem_cons_self
  have star : InScope captured.body false false (.pattern (.star (some "helper"))) :=
    pattern.part rfl List.mem_cons_self
  exact ⟨not_declared_of_all (by cbv), .inr ⟨.capture, false, _, _, star, by
    simp [Node.bindings]⟩⟩

theorem caught_name_resolved :
    (load (SingleModule.tree source) ["p"] [] false).1 = .ok project ∧
      LocalTo caught "helper" ∧ call 9 8 "helper" ∈ calls caught.body ∧
      project.target? caught.routine (call 9 8 "helper") = .ok (some helper.routine) ∧
      LocalTo captured "helper" ∧ call 15 12 "helper" ∈ calls captured.body ∧
      project.target? captured.routine (call 15 12 "helper") = .ok (some helper.routine) := by
  refine ⟨load_project, local_caught, ?_, by cbv, local_captured, ?_, by cbv⟩
  · have listed : calls caught.body = [call 7 8 "f", call 9 8 "helper"] := by cbv
    rw [listed]
    exact List.mem_cons_of_mem _ List.mem_cons_self
  · have listed : calls captured.body = [call 15 12 "helper"] := by cbv
    rw [listed]
    exact List.mem_cons_self

theorem target?_through_name_caught :
    (load (SingleModule.tree source) ["p"] [] false).1 = .ok project ∧
      LocalTo caught "f" ∧ project.target? caught.routine (call 7 8 "f") = .ok none ∧
      ¬ Hidden caught "helper" ∧
      project.target? caught.routine (call 9 8 "helper") =
        (project.resolveName project.findMethod module "helper").map routineOf := by
  have found : project.caller? caught.routine =
      some ⟨project, module, caught, Scope.ofDefinition caught, none⟩ := by cbv
  have parameter : "f" ∈ caught.parameters.all.map Parameter.name := List.mem_cons_self
  have own : LocalTo caught "f" := ⟨not_declared_of_all (by cbv), .inl parameter⟩
  have visible : ¬ Hidden caught "helper" :=
    mt (names_contains_iff scope_caught).mpr (by decide)
  have named : (call 7 8 "f").callee = .name "f" .load := rfl
  have named' : (call 9 8 "helper").callee = .name "helper" .load := rfl
  obtain ⟨hides, -, -⟩ := target?_through_name found named
  obtain ⟨-, -, told⟩ := target?_through_name found named'
  refine ⟨load_project, own, ?_, visible, ?_⟩
  · rcases hides own with none | ⟨free, -⟩
    · rw [none, scope_caught]
      rfl
    · exact absurd parameter free
  · rw [told visible, scope_caught]
    rfl

end CaughtHelper

end Project

end ProbeWeave
