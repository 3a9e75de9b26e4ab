import ProbeWeave.Project.Basic

/-!
# What names stand for

A dotted name is looked up from its first part on: in a module come its functions, then its
classes, then what it imports, and in a class its methods and those of its bases, nearer bases
first. Names that lead out of the project are foreign.

A name that is imported again and again is followed up to a fixed depth. Looking up the bases of a
class can itself need the bases of classes; where it needs its own, the search has no end and
fails.
-/

namespace ProbeWeave.Project

open Syntax Graph

/-- What a name stands for. -/
inductive Symbol where
  | module (m : Module)
  | cls (c : ClassInfo)
  | function (d : Definition)
  | foreign

/-- How a method is found on a class. -/
abbrev MethodSearch := ClassInfo → String → Except Fault (Option Definition)

/-- How the bases of a class are found. -/
abbrev BaseSearch := ClassInfo → Except Fault (List ClassInfo)

/-- A dotted name without its last part, and that part. -/
def splitLast? (dotted : String) : Option (String × String) :=
  match (dotted.splitOn ".").reverse with
  | last :: first :: rest => some (".".intercalate (first :: rest).reverse, last)
  | _ => none

/-- How often a name is followed at most. -/
def lookupDepth : Nat := 11

namespace Project

/-- Looks a dotted name up from the names of modules on, given a bound on the steps. -/
def lookupWithin (p : Project) (find : MethodSearch) : Nat → String → Except Fault (Option Symbol)
  | 0, _ => .ok none
  | steps + 1, dotted =>
    match p.modules.get? dotted with
    | some m => .ok (some (.module m))
    | none =>
      match splitLast? dotted with
      | none => .ok (some .foreign)
      | some (owner, name) => do
        match ← p.lookupWithin find steps owner with
        | none => return none
        | some .foreign => return some .foreign
        | some (.function _) => return none
        | some (.cls c) => return (← find c name).map .function
        | some (.module m) =>
          match m.functions.get? name, m.classes.get? name, m.imports.get? name with
          | some d, _, _ => return some (.function d)
          | none, some c, _ => return some (.cls c)
          | none, none, some target => p.lookupWithin find steps target
          | none, none, none => return none

/-- What a dotted name stands for anywhere in the project. -/
def lookupDotted (p : Project) (find : MethodSearch) (dotted : String) :
    Except Fault (Option Symbol) :=
  p.lookupWithin find lookupDepth dotted

/-- What a name stands for in a module. -/
def resolveName (p : Project) (find : MethodSearch) (m : Module) (name : String) :
    Except Fault (Option Symbol) :=
  match m.functions.get? name, m.classes.get? name, m.imports.get? name with
  | some d, _, _ => .ok (some (.function d))
  | none, some c, _ => .ok (some (.cls c))
  | none, none, some target => p.lookupDotted find target
  | none, none, none => .ok none

/-- What a name with members stands for in a module. -/
def resolveParts (p : Project) (find : MethodSearch) (m : Module) (head : String)
    (rest : List String) : Except Fault (Option Symbol) :=
  if rest.isEmpty then p.resolveName find m head
  else
    let behind := ".".intercalate rest
    match m.functions.get? head, m.classes.get? head, m.imports.get? head with
    | some _, _, _ => .ok none
    | none, some c, _ => do return (← find c behind).map .function
    | none, none, some target => p.lookupDotted find (target ++ "." ++ behind)
    | none, none, none => .ok none

/-- What an expression stands for in a module. -/
def resolveExpr (p : Project) (find : MethodSearch) (m : Module) (e : Expr) :
    Except Fault (Option Symbol) :=
  match e.dottedParts? with
  | some (head :: rest) => p.resolveParts find m head rest
  | _ => .ok none

/-- The class that an expression stands for in a module. -/
def resolveClass (p : Project) (find : MethodSearch) (m : Module) (e : Expr) :
    Except Fault (Option ClassInfo) := do
  match ← p.resolveExpr find m e with
  | some (.cls c) => return some c
  | _ => return none

/-- Whether two classes are the same: a module has one class of a name. -/
def sameClass (a b : ClassInfo) : Bool :=
  a.module == b.module && a.name == b.name

/--
Goes through classes in their order and then through the bases of those that were not met before.
Either some class has the method, or the bases found and the classes met are given.
-/
def searchLevel (bases : BaseSearch) (name : String) :
    List ClassInfo → List ClassInfo → List ClassInfo →
      Except Fault (Definition ⊕ (List ClassInfo × List ClassInfo))
  | [], next, met => .ok (.inr (next, met))
  | c :: rest, next, met =>
    if met.any (sameClass c) then searchLevel bases name rest next met
    else
      match c.methods.get? name with
      | some d => .ok (.inl d)
      | none => do searchLevel bases name rest (next ++ (← bases c)) (c :: met)

/-- Searches level by level, given a bound on the levels. -/
def searchLevels (bases : BaseSearch) (name : String) :
    Nat → List ClassInfo → List ClassInfo → Except Fault (Option Definition)
  | 0, _, _ => .ok none
  | levels + 1, classes, met => do
    match ← searchLevel bases name classes [] met with
    | .inl d => return some d
    | .inr (next, met) =>
      if next.isEmpty then return none else searchLevels bases name levels next met

/-- Finds a method on classes and their bases. Each level meets a new class or is the last. -/
def findFrom (p : Project) (bases : BaseSearch) (classes : List ClassInfo) (name : String) :
    Except Fault (Option Definition) :=
  searchLevels bases name (p.classCount + 2) classes []

/-- The bases of a class that are classes of the project, given a bound on bases of bases. -/
def basesWithin (p : Project) : Nat → BaseSearch
  | 0, _ => .error .endlessBases
  | n + 1, c =>
    match p.modules.get? c.module with
    | none => .ok []
    | some m => do
      let found ← c.bases.mapM
        (p.resolveClass (fun c name => p.findFrom (p.basesWithin n) [c] name) m)
      return found.filterMap id

/--
The bases of a class that are classes of the project. Where more searches for bases are nested
than there are classes, one of them waits for itself.
-/
def bases (p : Project) : BaseSearch :=
  p.basesWithin (p.classCount + 1)

/-- Finds a method on a class and its bases. -/
def findMethod (p : Project) : MethodSearch :=
  fun c name => p.findFrom p.bases [c] name

/-- Finds a method on the bases of a class. -/
def findInherited (p : Project) : MethodSearch :=
  fun c name => do p.findFrom p.bases (← p.bases c) name

end Project

end ProbeWeave.Project
