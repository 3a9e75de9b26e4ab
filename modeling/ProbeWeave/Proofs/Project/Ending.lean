import ProbeWeave.Proofs.Project.Annotations
import ProbeWeave.Proofs.Project.SingleModule
import ProbeWeave.Proofs.Project.Waiting

/-! # Lookups that end

A method lookup asks for the bases of classes of the project and for nothing else that might have no
end; so does the resolution of a call, in each of its steps. If the bases of all classes are found,
every lookup and every resolution ends.
-/

set_option linter.dupNamespace false

namespace ProbeWeave.Project

open Syntax ProbeWeave.Graph Outcome Relation

/-- Whether a computation does not fail for want of an end. -/
def Ends {α : Type} (x : Except Fault α) : Prop :=
  x ≠ .error .endlessBases

namespace Ends

variable {α β : Type}

theorem ok (a : α) : Ends (.ok a) := nofun

theorem pure (a : α) : Ends (Pure.pure a) := nofun

theorem bind {x : Except Fault α} {f : α → Except Fault β} (first : Ends x)
    (second : ∀ a, x = .ok a → Ends (f a)) : Ends (x >>= f) := by
  cases x with
  | ok a => exact second a rfl
  | error fault =>
    intro failed
    cases failed
    exact first rfl

theorem map {x : Except Fault α} (ends : Ends x) (f : α → β) : Ends (x.map f) := by
  cases x with
  | ok a => exact ok (f a)
  | error fault =>
    intro failed
    cases failed
    exact ends rfl

theorem foldlM {f : β → α → Except Fault β} (each : ∀ b a, Ends (f b a)) (as : List α) (b : β) :
    Ends (as.foldlM f b) := by
  induction as generalizing b with
  | nil => exact pure b
  | cons a rest ih =>
    rw [List.foldlM_cons]
    exact (each b a).bind fun b' _ => ih b'

end Ends

/-! ### The scope of a routine -/

theorem textExpression_ends (points : List Nat) : Ends (textExpression points) := by
  unfold textExpression
  split
  · rename_i fault surrogates
    intro failed
    cases failed
    unfold surrogateFault? at surrogates
    split at surrogates <;> cases surrogates
  · split <;> nofun

theorem candidatesWithin_ends (bound : Nat) (e : Expr) : Ends (candidatesWithin bound e) := by
  fun_induction candidatesWithin bound e with
  | case1 => exact .ok _
  | case2 => exact .ok _
  | case3 _ _ _ _ ih => exact ih
  | case4 => exact .ok _
  | case5 _ _ _ left right => exact left.bind fun _ _ => right.bind fun _ _ => .pure _
  | case6 bound points _ ih =>
    refine (textExpression_ends points).bind fun found _ => ?_
    cases found with
    | none => exact .pure _
    | some e => exact ih e
  | case7 => exact .ok _

theorem candidate?_ends (type : Option Expr) : Ends (candidate? type) := by
  cases type with
  | none => exact .ok none
  | some e => exact (candidatesWithin_ends _ e).map _

theorem scope_ends (d : Definition) : Ends (Scope.ofDefinition d) := by
  have parameter (types : Dictionary String Expr) (x : Parameter) :
      Ends (Scope.addParameter types x) := by
    refine (candidate?_ends _).bind fun found _ => ?_
    split <;> exact .pure _
  have node (types : Dictionary String Expr) (x : Node) : Ends (Scope.addNode types x) := by
    unfold Scope.addNode
    split
    · exact .ok _
    · exact (candidate?_ends _).bind fun _ _ => .pure _
    · exact .ok _
  exact (Ends.foldlM parameter _ _).bind fun _ _ => (Ends.foldlM node _ _).bind fun _ _ => .pure _

/-! ### Lookups in a project whose bases are all found -/

namespace Project

variable {p : Project} {α : Type}

/-- Whether the bases of all classes of the project are found. -/
def Settles (p : Project) : Prop :=
  ∀ c, p.HoldsClass c → ∃ bs, p.bases c = .ok bs

theorem settles_iff : p.Settles ↔ ∀ c, p.HoldsClass c → ¬ TransGen p.Needs c c := by
  constructor
  · intro settles c held cycle
    obtain ⟨bs, found⟩ := settles c held
    rw [endless_iff.mpr ⟨c, .refl, cycle⟩] at found
    cases found
  · intro acyclic c held
    cases result : p.bases c with
    | ok bs => exact ⟨bs, rfl⟩
    | error fault =>
      obtain rfl := basesWithin_error result
      obtain ⟨d, -, cycle⟩ := endless_iff.mp result
      obtain ⟨_, _, needs⟩ := TransGen.tail'_iff.mp cycle
      exact absurd cycle (acyclic d needs.1)

/-- A lookup that asks for bases finds those of every class. -/
theorem Inquires.succeeds {lookup : BaseSearch → Except Fault α} (inquires : p.Inquires lookup)
    (settles : p.Settles) : ∃ a, lookup p.bases = .ok a := by
  cases result : lookup p.bases with
  | ok a => exact ⟨a, rfl⟩
  | error fault =>
    obtain ⟨c, held, unknown, -⟩ := inquires.waits bases_keeps result
    obtain ⟨bs, found⟩ := settles c held
    rw [found] at unknown
    cases unknown

theorem Inquires.ends {lookup : BaseSearch → Except Fault α} (inquires : p.Inquires lookup)
    (settles : p.Settles) : Ends (lookup p.bases) := by
  obtain ⟨a, found⟩ := inquires.succeeds settles
  rw [found]
  exact .ok a

/-- A method that a class has not itself is not found if its bases are not. -/
theorem findMethod_of_endless {c : ClassInfo} (failed : p.bases c = .error .endlessBases)
    {name : String} (other : c.methods.get? name = none) :
    p.findMethod c name = .error .endlessBases := by
  simp only [findMethod, findFrom, searchLevels, searchLevel, other, failed]
  rfl

end Project

namespace Caller

open Project

variable {caller : Caller} {scope : Scope}

theorem attributeClass_ends (settles : caller.project.Settles) (name : String)
    (classes : List ClassInfo) : Ends (caller.attributeClass name classes) := by
  induction classes with
  | nil => exact .ok none
  | cons c rest ih =>
    rw [attributeClass]
    split
    · rename_i inProject
      have held := Dictionary.mem_values_of_get? inProject
      refine ((resolveClass_inquires held _).ends settles).bind fun found _ => ?_
      split
      · exact .pure _
      · exact ih
    · exact ih

theorem nameReceiver_ends (home : caller.AtHome) (settles : caller.project.Settles) (id : String) :
    Ends (caller.nameReceiver scope id) := by
  unfold nameReceiver
  split
  · exact .pure _
  · split
    · exact ((resolveClass_inquires home.module _).ends settles).bind fun _ _ => .pure _
    · split
      · exact .pure _
      · exact ((resolveName_inquires _ _).ends settles).bind fun _ _ => .pure _

theorem memberReceiver_ends (home : caller.AtHome) (settles : caller.project.Settles) (value : Expr)
    (id : String) : Ends (caller.memberReceiver scope value id) := by
  unfold memberReceiver
  dsimp only
  split
  case' h_1 c _ own =>
    split
    · obtain ⟨bs, found⟩ := settles c (home.ownClass c own)
      rw [found]
      exact (attributeClass_ends settles _ _).bind fun _ _ => .pure _
  -- What is no attribute of the own class is looked up by its dotted name.
  all_goals
    split
    · split
      · exact .pure _
      · exact ((resolveExpr_inquires home.module _).ends settles).bind fun _ _ => .pure _
    · exact .pure _

theorem callReceiver_ends (home : caller.AtHome) (settles : caller.project.Settles) (callee : Expr) :
    Ends (caller.callReceiver callee) := by
  unfold callReceiver
  split
  · exact .pure _
  · exact ((resolveClass_inquires home.module _).ends settles).bind fun _ _ => .pure _
  · exact ((resolveClass_inquires home.module _).ends settles).bind fun _ _ => .pure _
  · exact .pure _

theorem receiver?_ends (home : caller.AtHome) (settles : caller.project.Settles) (e : Expr) :
    Ends (caller.receiver? scope e) := by
  unfold receiver?
  split
  · exact .ok _
  · split
    · exact nameReceiver_ends home settles _
    · exact memberReceiver_ends home settles _ _
    · exact callReceiver_ends home settles _
    · exact .ok _

theorem memberOf_ends (settles : caller.project.Settles) {name : String} {receiver : Receiver}
    (held : caller.project.HoldsReceiver receiver) : Ends (caller.memberOf name receiver) := by
  cases receiver with
  | module m => exact .ok _
  | cls c => exact (findWith_inquires held name).ends settles
  | basesOf c =>
    obtain ⟨bs, found⟩ := settles c held
    simp only [memberOf, findInherited, found]
    exact (findFrom_inquires (bases_keeps c bs found) name).ends settles
  | foreign => exact .ok _

theorem target?_ends (home : caller.AtHome) (settles : caller.project.Settles)
    (known : Ends caller.scope) (call : Call) : Ends (caller.target? call) := by
  refine Ends.bind ?_ fun _ _ => .pure _
  rw [callee?]
  split
  · refine known.bind fun scope _ => ?_
    split
    · exact .pure _
    · refine ((resolveName_inquires _ _).ends settles).bind fun found _ => ?_
      split <;> exact .pure _
  · refine known.bind fun scope _ => ?_
    refine (receiver?_ends home settles _).bind fun receiver found => ?_
    split
    · exact memberOf_ends settles (receiver?_holds home _ _ found _ rfl)
    · exact .pure _
  · exact .ok _

end Caller

namespace Project

variable {p : Project}

theorem findInherited_succeeds (settles : p.Settles) {c : ClassInfo} (held : p.HoldsClass c)
    (name : String) : ∃ found, p.findInherited c name = .ok found := by
  obtain ⟨bs, found⟩ := settles c held
  simp only [findInherited, found]
  exact (findFrom_inquires (bases_keeps c bs found) name).succeeds settles

theorem target?_ends (settles : p.Settles) (r : Routine) (call : Call) :
    Ends (p.target? r call) := by
  unfold target?
  split
  · rename_i caller known
    obtain ⟨same, home⟩ := Caller.atHome_of_caller? known
    refine Caller.target?_ends home (same.symm ▸ settles) ?_ call
    simp only [Project.caller?, bind, Option.bind_eq_some_iff, pure, Option.some.injEq] at known
    obtain ⟨_, _, d, -, rfl⟩ := known
    exact scope_ends d
  · exact .ok none

/--
Lookups have no end exactly where a class needs its own bases. The bases of a class are not found if
and only if it needs, by itself or over others, such a class; then no bound would do for them, and
no method is found on the class that it has not itself. If there is no such class, every method
lookup on classes of the project gives a result, with any bound on its levels above the number of
classes the same, and no call fails to be resolved for want of an end.
-/
theorem lookups_end_iff (p : Project) :
    (∀ c, p.HoldsClass c →
      (p.bases c = .error .endlessBases ↔
        ∃ d, ReflTransGen p.Needs c d ∧ TransGen p.Needs d d) ∧
      (p.bases c = .error .endlessBases → ∀ n, p.basesWithin n c = .error .endlessBases) ∧
      (p.bases c = .error .endlessBases → ∀ name, c.methods.get? name = none →
        p.findMethod c name = .error .endlessBases)) ∧
    ((∀ c, p.HoldsClass c → ∃ bs, p.bases c = .ok bs) ↔
      ∀ c, p.HoldsClass c → ¬ TransGen p.Needs c c) ∧
    ((∀ c, p.HoldsClass c → ¬ TransGen p.Needs c c) →
      (∀ c, p.HoldsClass c → ∀ name,
        (∃ found, p.findMethod c name = .ok found ∧
          ∀ levels, p.classCount < levels →
            searchLevels p.bases name levels [c] [] = .ok found) ∧
        ∃ found, p.findInherited c name = .ok found) ∧
      ∀ r call, p.target? r call ≠ .error .endlessBases) := by
  refine ⟨fun c held => ⟨endless_iff, fun failed n => ?_, fun failed name other => ?_⟩,
    settles_iff, fun acyclic => ?_⟩
  · cases result : p.basesWithin n c with
    | ok bs =>
      rw [basesWithin_spreads_bases n c held bs result] at failed
      cases failed
    | error fault => rw [basesWithin_error result]
  · exact findMethod_of_endless failed other
  · have settles := settles_iff.mpr acyclic
    refine ⟨fun c held name => ⟨?_, findInherited_succeeds settles held name⟩,
      target?_ends settles⟩
    obtain ⟨found, success⟩ := (findWith_inquires held name).succeeds settles
    refine ⟨found, success, fun levels enough => ?_⟩
    rw [searchLevels_eq_findFrom bases_keeps name (by simpa using held) enough]
    exact success

end Project

/-! ### A class that inherits from a member of its own name -/

namespace OwnMember

open SingleModule

def source : String :=
  "class A:\n    class B:\n        pass\n\n\nclass A(A.B):\n    def run(self):\n" ++
    "        return self.helper()\n"

def call : Call :=
  ⟨⟨8, 15⟩, .member (.name "self" .load) "helper", [], []⟩

def method : Stmt :=
  .functionDef ⟨7, 8⟩ false "run" (.mk [] [.mk "self" none none] none [] none)
    [.returned ⟨8, 8⟩ (some (.call ⟨8, 15⟩ (.member (.name "self" .load) "helper") [] []))] [] none

def body : List Stmt :=
  [.classDef ⟨1, 3⟩ "A" [] [] [.classDef ⟨2, 3⟩ "B" [] [] [.pass ⟨3, 3⟩] []] [],
    .classDef ⟨6, 8⟩ "A" [.member (.name "A" .load) "B"] [] [method] []]

def run : Routine := ⟨"m", 0, some "A", "run", 7⟩

def cls : ClassInfo :=
  ⟨"m", "A", [.member (.name "A" .load) "B"], [method], ⟨[("run", ⟨run, method⟩)]⟩, .empty⟩

def module : Module :=
  ⟨unit source body, .empty, ⟨[("A", cls)]⟩, .empty, [⟨run, method⟩]⟩

set_option maxRecDepth 10000 in
theorem endless_ownMember :
    (load (SingleModule.tree source) ["p"] [] false).1 = .ok (SingleModule.project module false) ∧
      (SingleModule.project module false).findMethod cls "helper" = .error .endlessBases ∧
      (SingleModule.project module false).target? run call = .error .endlessBases := by
  have parsed : parseModule source = .ok body := by rfl
  refine ⟨load_tree parsed (by cbv) false, ?_, ?_⟩
  · cbv
  · cbv

end OwnMember

end ProbeWeave.Project
