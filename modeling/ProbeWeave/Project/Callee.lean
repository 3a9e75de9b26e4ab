import ProbeWeave.Project.Lookup

/-!
# What calls run

The routine that a call runs is told from the text alone, as far as that goes: names of the module,
the instance of a method, members whose class is known, names of other modules. A name that the
routine binds hides the module's. For receivers of which nothing is known a project can be told to
guess, but never for what a parameter or another local name holds.
-/

namespace ProbeWeave.Project

open Syntax Graph

/-! ### The names of a routine

What a routine binds by itself: its parameters, the names it assigns to and the definitions inside
of it. For some of these names an annotation or the call that made the value tells the class. -/

/-- The names bound inside a routine. -/
structure Scope where
  names : List String
  /-- Expressions that name the classes of some of the names. -/
  types : Dictionary String Expr
  /-- The name of the instance in a method that has one. -/
  selfName : Option String

instance : Inhabited Scope := ⟨⟨[], .empty, none⟩⟩

namespace Scope

/-- The names that a node binds in the scope it stands in. -/
def boundNames : Node → List String
  | .expr (.name id .store) => [id]
  | .stmt (.functionDef _ _ id ..) | .stmt (.classDef _ id ..) => [id]
  | _ => []

/-- The types after a node of the body. -/
def addNode (types : Dictionary String Expr) (node : Node) :
    Except Fault (Dictionary String Expr) :=
  match node with
  | .stmt (.assign _ [.name id _] value) =>
    .ok (ClassInfo.addAttribute types id (ClassInfo.maker? (some value)))
  | .stmt (.annotated _ (.name id _) annotation _ _) => do
    return ClassInfo.addAttribute types id (← candidate? (some annotation))
  | _ => .ok types

/-- The types after a parameter. -/
def addParameter (types : Dictionary String Expr) (p : Parameter) :
    Except Fault (Dictionary String Expr) := do
  match ← candidate? p.annotation? with
  | some e => return types.put p.name e
  | none => return types

/-- The instance of a method, which a static method does not have. -/
def selfNameOf (d : Definition) : Option String :=
  if d.routine.owner.isSome && !d.decoratorNames.contains "staticmethod" then
    d.firstPositional?
  else none

/-- The scope of a routine. -/
def ofDefinition (d : Definition) : Except Fault Scope := do
  let nodes := scopeNodes d.body
  let parameters := d.parameters.all
  let types ← parameters.foldlM addParameter .empty
  let types ← nodes.foldlM addNode types
  return ⟨parameters.map Parameter.name ++ nodes.flatMap boundNames, types, selfNameOf d⟩

end Scope

/-! ### Receivers and callees -/

/-- What is known of the receiver of a call. -/
inductive Receiver where
  | module (m : Module)
  | cls (c : ClassInfo)
  /-- The bases of a class. -/
  | basesOf (c : ClassInfo)
  | foreign

/-- A routine as the place that calls are made from. -/
structure Caller where
  project : Project
  module : Module
  definition : Definition
  scope : Except Fault Scope
  ownClass : Option ClassInfo

/-- A routine of the project as a caller. -/
def Project.caller? (p : Project) (r : Routine) : Option Caller := do
  let m ← p.modules.get? r.module
  let d ← p.definition? r
  return ⟨p, m, d, Scope.ofDefinition d, p.classOf? r⟩

/-- Whether the value of an expression is made by the language itself. -/
def isDisplay : Expr → Bool
  | .constant _ | .joined _ | .list _ | .tuple _ | .dict _ | .set _ | .listComprehension ..
  | .dictComprehension .. | .setComprehension .. | .generator .. => true
  | _ => false

namespace Caller

/-- The class of an attribute of the instance, by the first of the classes that tells. -/
def attributeClass (caller : Caller) (name : String) :
    List ClassInfo → Except Fault (Option ClassInfo)
  | [] => .ok none
  | c :: rest =>
    match c.attributes.get? name, caller.project.modules.get? c.module with
    | some type, some m => do
      match ← caller.project.resolveClass caller.project.findMethod m type with
      | some found => return some found
      | none => caller.attributeClass name rest
    | _, _ => caller.attributeClass name rest

/-- What a symbol is as a receiver; functions are none. -/
def receiverOf : Option Symbol → Option Receiver
  | some (.module m) => some (.module m)
  | some (.cls c) => some (.cls c)
  | some .foreign => some .foreign
  | some (.function _) | none => none

/-- What is known of a name as a receiver. -/
def nameReceiver (caller : Caller) (scope : Scope) (id : String) :
    Except Fault (Option Receiver) := do
  let p := caller.project
  if scope.selfName == some id then return caller.ownClass.map .cls
  else
    match scope.types.get? id with
    | some type =>
      return (← p.resolveClass p.findMethod caller.module type).map .cls
    | none =>
      if scope.names.contains id then return none
      else return receiverOf (← p.resolveName p.findMethod caller.module id)

/-- What is known of a member of something as a receiver. -/
def memberReceiver (caller : Caller) (scope : Scope) (value : Expr) (id : String) :
    Except Fault (Option Receiver) := do
  let p := caller.project
  match value, scope.selfName, caller.ownClass with
  | .name owner _, some self, some c =>
    if owner == self then
      return (← caller.attributeClass id (c :: (← p.bases c))).map .cls
  | _, _, _ => pure ()
  let e := Expr.member value id
  match e.dottedParts? with
  | some (head :: _) =>
    if scope.names.contains head then return none
    else return receiverOf (← p.resolveExpr p.findMethod caller.module e)
  | _ => return none

/-- What is known of the value of a call as a receiver. -/
def callReceiver (caller : Caller) (callee : Expr) : Except Fault (Option Receiver) := do
  let p := caller.project
  match callee, caller.ownClass with
  | .name "super" _, some c => return some (.basesOf c)
  | .name .., _ | .member .., _ =>
    return (← p.resolveClass p.findMethod caller.module callee).map .cls
  | _, _ => return none

/-- What is known of the receiver of a call. -/
def receiver? (caller : Caller) (scope : Scope) (e : Expr) : Except Fault (Option Receiver) :=
  if isDisplay e then .ok (some .foreign)
  else
    match e with
    | .name id _ => caller.nameReceiver scope id
    | .member value id => caller.memberReceiver scope value id
    | .call _ callee _ _ => caller.callReceiver callee
    | _ => .ok none

/-- The method that a call on an unknown receiver is guessed to run. -/
def guess? (caller : Caller) (scope : Scope) (value : Expr) (name : String) :
    Option Definition :=
  let hidden :=
    match value.headName? with
    | some head => some head != scope.selfName && scope.names.contains head
    | none => false
  if !caller.project.guesses || hidden then none
  else
    match caller.project.methodsNamed name with
    | [d] => some d
    | _ => none

/-- The definition that a member of a known receiver is. -/
def memberOf (caller : Caller) (name : String) : Receiver → Except Fault (Option Definition)
  | .module m => .ok (m.functions.get? name)
  | .cls c => caller.project.findMethod c name
  | .basesOf c => caller.project.findInherited c name
  | .foreign => .ok none

/-- The definition that a call runs, as far as that can be told. -/
def callee? (caller : Caller) (call : Call) : Except Fault (Option Definition) :=
  match call.callee with
  | .name id _ => do
    let scope ← caller.scope
    if scope.names.contains id then return none
    else
      match ← caller.project.resolveName caller.project.findMethod caller.module id with
      | some (.function d) => return some d
      | _ => return none
  | .member value name => do
    let scope ← caller.scope
    match ← caller.receiver? scope value with
    | some receiver => caller.memberOf name receiver
    | none => return caller.guess? scope value name
  | _ => .ok none

/-- The routine that a call runs, as far as that can be told. -/
def target? (caller : Caller) (call : Call) : Except Fault (Option Routine) := do
  return (← caller.callee? call).map (·.routine)

end Caller

end ProbeWeave.Project
