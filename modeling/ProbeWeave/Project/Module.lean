import ProbeWeave.Dictionary
import ProbeWeave.Files.Path
import ProbeWeave.Graph.Basic
import ProbeWeave.Project.Annotation
import ProbeWeave.Syntax.Block

/-!
# Modules and what they define

A module is indexed once: its functions and classes at module level, the methods of those
classes, and what its imports bind, wherever they stand. Definitions inside of functions are not
indexed.
-/

namespace ProbeWeave.Project

open Syntax Graph

/-- A module as it was read. -/
structure SourceUnit where
  path : Files.Path
  /-- The path as seen from the directory of the project. -/
  relative : Files.Path
  name : String
  isPackage : Bool
  source : String
  body : List Stmt

/-- A function or method with its statement. -/
structure Definition where
  routine : Routine
  statement : Stmt

namespace Definition

/-- The body of a definition. -/
def body (d : Definition) : List Stmt :=
  match d.statement with
  | .functionDef _ _ _ _ body _ _ => body
  | _ => []

/-- The parameters of a definition. -/
def parameters (d : Definition) : Parameters :=
  match d.statement with
  | .functionDef _ _ _ parameters _ _ _ => parameters
  | _ => default

/-- The name of the first parameter that takes a position. -/
def firstPositional? (d : Definition) : Option String :=
  d.parameters.positional.head?.map Parameter.name

/-- The dotted names of the decorators, called or not. -/
def decoratorNames (d : Definition) : List String :=
  d.statement.decorators.filterMap fun decorator =>
    match decorator.expression with
    | .call _ callee _ _ => callee.dottedName?
    | e => e.dottedName?

end Definition

/-- A class at module level. -/
structure ClassInfo where
  module : String
  name : String
  bases : List Expr
  body : List Stmt
  /-- The methods by name, the last definition of each. -/
  methods : Dictionary String Definition
  /-- Expressions that name the classes of attributes. -/
  attributes : Dictionary String Expr

/-- The name of a class within the project. -/
def ClassInfo.fullName (c : ClassInfo) : String :=
  c.module ++ "." ++ c.name

/-- A module with what it defines and imports. -/
structure Module where
  unit : SourceUnit
  functions : Dictionary String Definition
  classes : Dictionary String ClassInfo
  /-- What imported names stand for: a module, or a member of one. -/
  imports : Dictionary String String
  /-- All functions and methods in the order of the text, also those that are defined again. -/
  definitions : List Definition

namespace SourceUnit

/-- The routine that a definition makes, given its place among those of the module. -/
def routineOf (unit : SourceUnit) (owner : Option String) (name : String) (line : Nat)
    (ordinal : Nat) : Routine :=
  ⟨unit.name, ordinal, owner, name, line⟩

/-- The functions and methods of a class body or module body, with their names. -/
def definitionsOf (unit : SourceUnit) (owner : Option String) (ordinal : Nat) (body : List Stmt) :
    List (String × Definition) :=
  let found := body.filterMap fun s =>
    match s with
    | .functionDef lines _ name .. => some (name, lines.first, s)
    | _ => none
  found.mapIdx fun i (name, line, s) =>
    (name, ⟨unit.routineOf owner name line (ordinal + i), s⟩)

/-- The index of a module without its imports, after one more statement. -/
def addStatement (unit : SourceUnit) (m : Module) (s : Stmt) : Module :=
  match s with
  | .functionDef .. =>
    (unit.definitionsOf none m.definitions.length [s]).foldl (fun m (name, d) =>
      { m with
        functions := m.functions.put name d
        definitions := m.definitions ++ [d] }) m
  | .classDef _ name bases _ body _ =>
    let methods := unit.definitionsOf (some name) m.definitions.length body
    { m with
      classes := m.classes.put name
        ⟨unit.name, name, bases, body, .ofList methods, .empty⟩
      definitions := m.definitions ++ methods.map Prod.snd }
  | _ => m

/-- The module that an import with a number of leading points reads from. -/
def importBase? (unit : SourceUnit) (module : Option String) (level : Nat) : Option String :=
  if level == 0 then some (module.getD "")
  else
    let names := if unit.name.isEmpty then [] else unit.name.splitOn "."
    let package := if unit.isPackage then names else names.dropLast
    if package.length < level - 1 then none
    else some (".".intercalate (package.take (package.length - (level - 1)) ++ module.toList))

/-- The imported names after one more statement. -/
def addImport (unit : SourceUnit) (imports : Dictionary String String) (node : Node) :
    Dictionary String String :=
  match node with
  | .stmt (.imports _ names) =>
    names.foldl (fun imports a =>
      match a.boundAs with
      | some bound => imports.put bound a.name
      | none =>
        let top := (a.name.splitOn ".").headD ""
        imports.putNew top top) imports
  | .stmt (.importsFrom _ module names level) =>
    match unit.importBase? module level with
    | none => imports
    | some base =>
      names.foldl (fun imports a =>
        if a.name == "*" then imports
        else
          imports.put (a.boundAs.getD a.name)
            (if base.isEmpty then a.name else base ++ "." ++ a.name)) imports
  | _ => imports

/-- The index of a module, the types of attributes left aside. -/
def index (unit : SourceUnit) : Module :=
  let m := unit.body.foldl unit.addStatement ⟨unit, .empty, .empty, .empty, []⟩
  { m with imports := (Node.levels (unit.body.map .stmt)).foldl unit.addImport .empty }

end SourceUnit

namespace ClassInfo

/-- Notes the class of an attribute unless one is known. -/
def addAttribute (attributes : Dictionary String Expr) (name : String) (type : Option Expr) :
    Dictionary String Expr :=
  match type with
  | some e => attributes.putNew name e
  | none => attributes

/-- What a value is made by, if it is a call. -/
def maker? : Option Expr → Option Expr
  | some (.call _ callee _ _) => some callee
  | _ => none

/-- The attributes after a statement of the class body. -/
def addClassLevel (attributes : Dictionary String Expr) (s : Stmt) :
    Except Fault (Dictionary String Expr) :=
  match s with
  | .assign _ targets value =>
    .ok (targets.foldl (fun attributes target =>
      match target with
      | .name id _ => addAttribute attributes id (maker? (some value))
      | _ => attributes) attributes)
  | .annotated _ (.name id _) annotation value _ => do
    let annotated ← candidate? (some annotation)
    return addAttribute attributes id ((maker? value).or annotated)
  | _ => .ok attributes

/-- The attributes after a node of a method, given the name of the instance there. -/
def addInstanceLevel (self : String) (attributes : Dictionary String Expr) (node : Node) :
    Except Fault (Dictionary String Expr) :=
  match node with
  | .stmt (.assign _ [.member (.name owner _) id] value) =>
    .ok (if owner == self then addAttribute attributes id (maker? (some value)) else attributes)
  | .stmt (.annotated _ (.member (.name owner _) id) annotation value _) =>
    if owner == self then
      match maker? value with
      | some e => .ok (attributes.putNew id e)
      | none => do return addAttribute attributes id (← candidate? (some annotation))
    else .ok attributes
  | _ => .ok attributes

/-- The class with the types of its attributes: those of the body, then those of the methods. -/
def withAttributes (c : ClassInfo) : Except Fault ClassInfo := do
  let attributes ← c.body.foldlM addClassLevel .empty
  let attributes ← c.methods.values.foldlM (fun attributes method =>
    match method.firstPositional? with
    | some self => (scopeNodes method.body).foldlM (addInstanceLevel self) attributes
    | none => .ok attributes) attributes
  return { c with attributes }

end ClassInfo

/-- A module with the types of the attributes of its classes. -/
def Module.withAttributes (m : Module) : Except Fault Module := do
  let entries ← m.classes.entries.mapM fun (name, c) => return (name, ← c.withAttributes)
  return { m with classes := ⟨entries⟩ }

end ProbeWeave.Project
