import ProbeWeave.Graph.Model
import ProbeWeave.Outcome
import ProbeWeave.Project.Callee

/-!
# What lookups find is the project's

Whatever a name, an expression or a call is found to stand for is a module, a class or a definition
that the project holds. The routines that calls can run are therefore among finitely many.
-/

namespace ProbeWeave

/-- A value that a key has is one of the values. -/
theorem Dictionary.mem_values_of_get? {κ α : Type} [BEq κ] {d : Dictionary κ α} {key : κ} {value : α}
    (found : d.get? key = some value) : value ∈ d.values := by
  obtain ⟨entries⟩ := d
  simp only [Dictionary.get?, Dictionary.values] at found ⊢
  induction entries with
  | nil => simp at found
  | cons entry rest ih =>
    rw [List.lookup_cons] at found
    split at found
    · simp_all
    · exact List.mem_cons_of_mem _ (ih found)

namespace Project

open Syntax Graph Outcome

/-- The definitions that a module holds in any of its tables. -/
def Module.holdings (m : Module) : List Definition :=
  m.definitions ++ m.functions.values ++ m.classes.values.flatMap (·.methods.values)

namespace Project

/-- The definitions that the modules of a project hold. -/
def holdings (p : Project) : List Definition :=
  p.modules.values.flatMap Module.holdings

/-- Whether a class is in a module of the project. -/
def HoldsClass (p : Project) (c : ClassInfo) : Prop :=
  ∃ m ∈ p.modules.values, c ∈ m.classes.values

/-- Whether what a name stands for is in the project, unless it is foreign. -/
def HoldsSymbol (p : Project) : Symbol → Prop
  | .module m => m ∈ p.modules.values
  | .cls c => p.HoldsClass c
  | .function d => d ∈ p.holdings
  | .foreign => True

/-- Methods found on classes of the project are in the project. -/
def KeepsMethods (p : Project) (find : MethodSearch) : Prop :=
  ∀ c name, p.HoldsClass c → Gives (find c name) fun found => ∀ d ∈ found, d ∈ p.holdings

/-- The bases found of classes of the project are in the project. -/
def KeepsBases (p : Project) (bases : BaseSearch) : Prop :=
  ∀ c, Gives (bases c) fun found => ∀ b ∈ found, p.HoldsClass b

variable {p : Project} {find : MethodSearch} {bases : BaseSearch} {m : Module}

theorem mem_holdings_of_definition {d : Definition} (held : m ∈ p.modules.values)
    (member : d ∈ m.definitions) : d ∈ p.holdings :=
  List.mem_flatMap.mpr ⟨m, held, by simp [Module.holdings, member]⟩

theorem mem_holdings_of_function {name : String} {d : Definition} (held : m ∈ p.modules.values)
    (found : m.functions.get? name = some d) : d ∈ p.holdings :=
  List.mem_flatMap.mpr ⟨m, held, by
    simp [Module.holdings, Dictionary.mem_values_of_get? found]⟩

theorem mem_holdings_of_method {c : ClassInfo} {name : String} {d : Definition}
    (held : p.HoldsClass c) (found : c.methods.get? name = some d) : d ∈ p.holdings := by
  obtain ⟨m, member, inModule⟩ := held
  refine List.mem_flatMap.mpr ⟨m, member, ?_⟩
  simp only [Module.holdings, List.mem_append, List.mem_flatMap]
  exact .inr ⟨c, inModule, Dictionary.mem_values_of_get? found⟩

theorem holdsClass_of_get? {name : String} {c : ClassInfo} (held : m ∈ p.modules.values)
    (found : m.classes.get? name = some c) : p.HoldsClass c :=
  ⟨m, held, Dictionary.mem_values_of_get? found⟩

/-- A method found on a class and taken for a function is in the project. -/
theorem method_holds {c : ClassInfo} {name : String} (keeps : p.KeepsMethods find)
    (held : p.HoldsClass c) :
    Gives (do return (← find c name).map Symbol.function) fun found =>
      ∀ s ∈ found, p.HoldsSymbol s := by
  refine gives_bind (keeps c name held) fun method inProject => gives_pure ?_
  intro s member
  obtain ⟨d, found, rfl⟩ := Option.map_eq_some_iff.mp member
  exact inProject d found

theorem lookupWithin_holds (keeps : p.KeepsMethods find) (steps : Nat) (dotted : String) :
    Gives (p.lookupWithin find steps dotted) fun found => ∀ s ∈ found, p.HoldsSymbol s := by
  induction steps generalizing dotted with
  | zero => exact gives_ok (by simp)
  | succ steps ih =>
    rw [lookupWithin]
    split
    · rename_i m inProject
      exact gives_ok (by simpa [HoldsSymbol] using Dictionary.mem_values_of_get? inProject)
    · split
      · exact gives_ok (by simp [HoldsSymbol])
      · refine gives_bind (ih _) fun owner owned => ?_
        split
        · exact gives_pure (by simp)
        · exact gives_pure (by simp [HoldsSymbol])
        · exact gives_pure (by simp)
        · exact method_holds keeps (owned _ rfl)
        · have held := owned _ rfl
          split
          · rename_i inFunctions
            exact gives_pure (by simpa [HoldsSymbol] using mem_holdings_of_function held inFunctions)
          · rename_i inClasses
            exact gives_pure (by simpa [HoldsSymbol] using holdsClass_of_get? held inClasses)
          · exact ih _
          · exact gives_pure (by simp)

theorem resolveName_holds (keeps : p.KeepsMethods find) (held : m ∈ p.modules.values)
    (name : String) :
    Gives (p.resolveName find m name) fun found => ∀ s ∈ found, p.HoldsSymbol s := by
  rw [resolveName]
  split
  · rename_i inFunctions
    exact gives_ok (by simpa [HoldsSymbol] using mem_holdings_of_function held inFunctions)
  · rename_i inClasses
    exact gives_ok (by simpa [HoldsSymbol] using holdsClass_of_get? held inClasses)
  · exact lookupWithin_holds keeps _ _
  · exact gives_ok (by simp)

theorem resolveParts_holds (keeps : p.KeepsMethods find) (held : m ∈ p.modules.values)
    (head : String) (rest : List String) :
    Gives (p.resolveParts find m head rest) fun found => ∀ s ∈ found, p.HoldsSymbol s := by
  rw [resolveParts]
  split
  · exact resolveName_holds keeps held head
  · dsimp only
    split
    · exact gives_ok (by simp)
    · rename_i inClasses
      exact method_holds keeps (holdsClass_of_get? held inClasses)
    · exact lookupWithin_holds keeps _ _
    · exact gives_ok (by simp)

theorem resolveExpr_holds (keeps : p.KeepsMethods find) (held : m ∈ p.modules.values) (e : Expr) :
    Gives (p.resolveExpr find m e) fun found => ∀ s ∈ found, p.HoldsSymbol s := by
  rw [resolveExpr]
  split
  · exact resolveParts_holds keeps held _ _
  · exact gives_ok (by simp)

theorem resolveClass_holds (keeps : p.KeepsMethods find) (held : m ∈ p.modules.values) (e : Expr) :
    Gives (p.resolveClass find m e) fun found => ∀ c ∈ found, p.HoldsClass c := by
  refine gives_bind (resolveExpr_holds keeps held e) fun symbol inProject => ?_
  split
  · exact gives_pure (by simpa [HoldsSymbol] using inProject _ rfl)
  · exact gives_pure (by simp)

/-- A level of a search finds a method of the project, or goes on with classes of the project. -/
theorem searchLevel_holds (keeps : p.KeepsBases bases) (name : String)
    (classes next met : List ClassInfo) (held : ∀ c ∈ classes, p.HoldsClass c)
    (heldNext : ∀ c ∈ next, p.HoldsClass c) :
    Gives (searchLevel bases name classes next met) fun found =>
      (∀ d, found = .inl d → d ∈ p.holdings) ∧
        ∀ further now, found = .inr (further, now) → ∀ c ∈ further, p.HoldsClass c := by
  induction classes generalizing next met with
  | nil => exact gives_ok ⟨by simp, by rintro further now ⟨rfl, rfl⟩; exact heldNext⟩
  | cons c rest ih =>
    obtain ⟨here, others⟩ := List.forall_mem_cons.mp held
    rw [searchLevel]
    split
    · exact ih next met others heldNext
    · split
      · rename_i d found
        refine gives_ok ⟨?_, by simp⟩
        rintro _ ⟨rfl⟩
        exact mem_holdings_of_method here found
      · refine gives_bind (keeps c) fun further inProject => ?_
        refine ih _ _ others fun b member => ?_
        exact (List.mem_append.mp member).elim (heldNext b) (inProject b)

theorem searchLevels_holds (keeps : p.KeepsBases bases) (name : String) (levels : Nat)
    (classes met : List ClassInfo) (held : ∀ c ∈ classes, p.HoldsClass c) :
    Gives (searchLevels bases name levels classes met) fun found =>
      ∀ d ∈ found, d ∈ p.holdings := by
  induction levels generalizing classes met with
  | zero => exact gives_ok (by simp)
  | succ levels ih =>
    rw [searchLevels]
    refine gives_bind (searchLevel_holds keeps name classes [] met held (by simp)) ?_
    rintro found ⟨method, further⟩
    split
    · exact gives_pure (by simpa using method _ rfl)
    · split
      · exact gives_pure (by simp)
      · exact ih _ _ (further _ _ rfl)

theorem findFrom_holds (keeps : p.KeepsBases bases) {classes : List ClassInfo}
    (held : ∀ c ∈ classes, p.HoldsClass c) (name : String) :
    Gives (p.findFrom bases classes name) fun found => ∀ d ∈ found, d ∈ p.holdings :=
  searchLevels_holds keeps name _ classes [] held

theorem basesWithin_keeps (n : Nat) : p.KeepsBases (p.basesWithin n) := by
  induction n with
  | zero => exact fun c => gives_error
  | succ n ih =>
    intro c
    rw [basesWithin]
    split
    · exact gives_ok (by simp)
    · rename_i m inProject
      have held := Dictionary.mem_values_of_get? inProject
      have finds : p.KeepsMethods fun c name => p.findFrom (p.basesWithin n) [c] name :=
        fun c name heldClass => findFrom_holds ih (by simpa using heldClass) name
      refine gives_bind (gives_mapM fun e _ => resolveClass_holds finds held e) ?_
      intro found inProject
      refine gives_pure fun b member => ?_
      obtain ⟨option, inFound, same⟩ := List.mem_filterMap.mp member
      exact inProject option inFound b same

theorem bases_keeps : p.KeepsBases p.bases :=
  basesWithin_keeps _

theorem findMethod_keeps : p.KeepsMethods p.findMethod :=
  fun _ name held => findFrom_holds bases_keeps (by simpa using held) name

theorem findInherited_keeps : p.KeepsMethods p.findInherited :=
  fun c name _ => gives_bind (bases_keeps c) fun _ inProject =>
    findFrom_holds bases_keeps inProject name

/-- Whether what is known of a receiver is in the project, unless it is foreign. -/
def HoldsReceiver (p : Project) : Receiver → Prop
  | .module m => m ∈ p.modules.values
  | .cls c | .basesOf c => p.HoldsClass c
  | .foreign => True

end Project

namespace Caller

open Project

variable {caller : Caller} {scope : Scope}

/-- Whether what a caller knows of itself is in its project. -/
structure AtHome (caller : Caller) : Prop where
  module : caller.module ∈ caller.project.modules.values
  ownClass : ∀ c ∈ caller.ownClass, caller.project.HoldsClass c

theorem attributeClass_holds (name : String) (classes : List ClassInfo) :
    Gives (caller.attributeClass name classes) fun found =>
      ∀ c ∈ found, caller.project.HoldsClass c := by
  induction classes with
  | nil => exact gives_ok (by simp)
  | cons c rest ih =>
    rw [attributeClass]
    split
    · rename_i m _ inProject
      have held := Dictionary.mem_values_of_get? inProject
      refine gives_bind (resolveClass_holds findMethod_keeps held _) fun found inProject => ?_
      split
      · exact gives_pure inProject
      · exact ih
    · exact ih

theorem receiverOf_holds {p : Project} {found : Option Symbol}
    (held : ∀ s ∈ found, p.HoldsSymbol s) : ∀ r ∈ receiverOf found, p.HoldsReceiver r := by
  intro r member
  cases found with
  | none => simp [receiverOf] at member
  | some s =>
    have inProject := held s rfl
    cases s <;> simp only [receiverOf, Option.mem_def, Option.some.injEq, reduceCtorEq] at member <;>
      subst member <;> exact inProject

/-- A class that is found is known of a receiver. -/
theorem gives_classReceiver {p : Project} {ε : Type} {x : Except ε (Option ClassInfo)}
    (found : Gives x fun found => ∀ c ∈ found, p.HoldsClass c) :
    Gives (do return (← x).map Receiver.cls) fun found => ∀ r ∈ found, p.HoldsReceiver r := by
  refine gives_bind found fun cls inProject => gives_pure fun r member => ?_
  obtain ⟨c, known, rfl⟩ := Option.map_eq_some_iff.mp member
  exact inProject c known

theorem nameReceiver_holds (home : caller.AtHome) (id : String) :
    Gives (caller.nameReceiver scope id) fun found =>
      ∀ r ∈ found, caller.project.HoldsReceiver r := by
  unfold nameReceiver
  split
  · refine gives_pure fun r member => ?_
    obtain ⟨c, own, rfl⟩ := Option.map_eq_some_iff.mp member
    exact home.ownClass c own
  · split
    · exact gives_classReceiver (resolveClass_holds findMethod_keeps home.module _)
    · split
      · exact gives_pure (by simp)
      · exact gives_bind (resolveName_holds findMethod_keeps home.module id) fun found held =>
          gives_pure (receiverOf_holds held)

theorem memberReceiver_holds (home : caller.AtHome) (value : Expr) (id : String) :
    Gives (caller.memberReceiver scope value id) fun found =>
      ∀ r ∈ found, caller.project.HoldsReceiver r := by
  unfold memberReceiver
  dsimp only
  split
  case' h_1 =>
    split
    · refine gives_bind (P := fun _ => True) (fun _ _ => trivial) fun bases _ => ?_
      exact gives_classReceiver (attributeClass_holds id _)
  -- What is no attribute of the own class is looked up by its dotted name.
  all_goals
    split
    · split
      · exact gives_pure (by simp)
      · exact gives_bind (resolveExpr_holds findMethod_keeps home.module _) fun found held =>
          gives_pure (receiverOf_holds held)
    · exact gives_pure (by simp)

theorem callReceiver_holds (home : caller.AtHome) (callee : Expr) :
    Gives (caller.callReceiver callee) fun found =>
      ∀ r ∈ found, caller.project.HoldsReceiver r := by
  unfold callReceiver
  split
  · rename_i c own
    exact gives_pure (by simpa [HoldsReceiver] using home.ownClass c own)
  · exact gives_classReceiver (resolveClass_holds findMethod_keeps home.module _)
  · exact gives_classReceiver (resolveClass_holds findMethod_keeps home.module _)
  · exact gives_pure (by simp)

theorem receiver?_holds (home : caller.AtHome) (e : Expr) :
    Gives (caller.receiver? scope e) fun found => ∀ r ∈ found, caller.project.HoldsReceiver r := by
  unfold receiver?
  split
  · exact gives_ok (by simp [HoldsReceiver])
  · split
    · exact nameReceiver_holds home _
    · exact memberReceiver_holds home _ _
    · exact callReceiver_holds home _
    · exact gives_ok (by simp)

theorem guess?_holds {value : Expr} {name : String} {d : Definition}
    (guessed : caller.guess? scope value name = some d) : d ∈ caller.project.holdings := by
  unfold guess? at guessed
  extract_lets hidden at guessed
  split at guessed
  · simp at guessed
  · split at guessed
    · rename_i same
      cases guessed
      have member : d ∈ caller.project.methodsNamed name := by simp [same]
      obtain ⟨m, held, inModule⟩ := List.mem_flatMap.mp member
      exact mem_holdings_of_definition held (List.mem_filter.mp inModule).1
    · simp at guessed

theorem memberOf_holds {name : String} {receiver : Receiver}
    (held : caller.project.HoldsReceiver receiver) :
    Gives (caller.memberOf name receiver) fun found => ∀ d ∈ found, d ∈ caller.project.holdings := by
  cases receiver with
  | module m => exact gives_ok fun d found => mem_holdings_of_function held found
  | cls c => exact findMethod_keeps c name held
  | basesOf c => exact findInherited_keeps c name held
  | foreign => exact gives_ok (by simp)

theorem callee?_holds (home : caller.AtHome) (call : Call) :
    Gives (caller.callee? call) fun found => ∀ d ∈ found, d ∈ caller.project.holdings := by
  rw [callee?]
  split
  · refine gives_bind (P := fun _ => True) (fun _ _ => trivial) fun scope _ => ?_
    split
    · exact gives_pure (by simp)
    · refine gives_bind (resolveName_holds findMethod_keeps home.module _) fun found held => ?_
      split
      · exact gives_pure (by simpa [HoldsSymbol] using held _ rfl)
      · exact gives_pure (by simp)
  · refine gives_bind (P := fun _ => True) (fun _ _ => trivial) fun scope _ => ?_
    refine gives_bind (receiver?_holds home _) fun found held => ?_
    split
    · exact memberOf_holds (held _ rfl)
    · exact gives_pure fun d guessed => guess?_holds guessed
  · exact gives_ok (by simp)

/-- A call runs a routine of the project. -/
theorem target?_holds (home : caller.AtHome) (call : Call) :
    Gives (caller.target? call) fun found =>
      ∀ r ∈ found, r ∈ caller.project.holdings.map (·.routine) := by
  refine gives_bind (callee?_holds home call) fun found held => gives_pure fun r member => ?_
  obtain ⟨d, known, rfl⟩ := Option.map_eq_some_iff.mp member
  exact List.mem_map_of_mem (held d known)

/-- A routine of a project is a caller at home there. -/
theorem atHome_of_caller? {p : Project} {r : Routine} {caller : Caller}
    (found : p.caller? r = some caller) : caller.project = p ∧ caller.AtHome := by
  simp only [Project.caller?, bind, Option.bind_eq_some_iff, pure, Option.some.injEq] at found
  obtain ⟨m, inProject, d, -, rfl⟩ := found
  refine ⟨rfl, Dictionary.mem_values_of_get? inProject, fun c own => ?_⟩
  simp only [Project.classOf?, inProject, bind, Option.mem_def, Option.bind_some,
    Option.bind_eq_some_iff] at own
  obtain ⟨owner, -, found⟩ := own
  exact holdsClass_of_get? (Dictionary.mem_values_of_get? inProject) found

end Caller

namespace Project

/-- The routines of all definitions that a project holds. -/
def routines (p : Project) : List Routine :=
  p.holdings.map (·.routine)

/-- The routine that a call in a routine runs, as far as that can be told. -/
def target? (p : Project) (r : Routine) (call : Call) : Except Fault (Option Routine) :=
  match p.caller? r with
  | some caller => caller.target? call
  | none => .ok none

/-- Calls in a project run routines of the project. -/
theorem mem_routines_of_target? {p : Project} {r t : Routine} {call : Call}
    (found : p.target? r call = .ok (some t)) : t ∈ p.routines := by
  unfold target? at found
  split at found
  · rename_i caller known
    obtain ⟨rfl, home⟩ := Caller.atHome_of_caller? known
    exact Caller.target?_holds home call _ found t rfl
  · simp at found

/-- A project as its call graphs see it. -/
def model (p : Project) : ProgramModel Fault where
  routines := p.routines
  body r := ((p.caller? r).map (·.definition.body)).getD []
  target? := p.target?
  owns := p.owns
  target_mem := mem_routines_of_target?

end Project

end Project

end ProbeWeave
