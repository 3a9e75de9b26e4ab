import ProbeWeave.Probe.Registry
import ProbeWeave.Project.Basic
import ProbeWeave.Text.Lowercase

/-!
# Where a program is entered

The entry routine is named by a method and perhaps a class or a module. A class may be qualified by
its module, with a point or a colon, and upper and lower case of its name are the same.
-/

namespace ProbeWeave.Project

open Graph

/-- The first value that is found in a list. -/
def firstOf {α β : Type} (f : α → Option β) : List α → Option β :=
  List.findSome? f

/-- A class name with the module in front of it, if there is one. -/
def qualifier (type : String) : Option String × String :=
  match type.splitOn ":" with
  | first :: second :: rest => (some first, ":".intercalate (second :: rest))
  | _ =>
    match (type.splitOn ".").reverse with
    | last :: first :: rest => (some (".".intercalate (first :: rest).reverse), last)
    | _ => (none, type)

namespace Project

/-- A function of that name, in the first module that has one. -/
def anyFunction? (p : Project) (name : String) : Option Routine :=
  firstOf (fun m => (m.functions.get? name).map (·.routine)) p.sortedModules

/-- A method of that name in the first class of that name that has one. -/
def anyMethod? (p : Project) (type name : String) : Option Routine :=
  let (module, cls) := qualifier type
  firstOf (fun m =>
    if module.any (· != m.unit.name) then none
    else
      firstOf (fun c =>
        if Text.lower c.name == Text.lower cls then (c.methods.get? name).map (·.routine)
        else none) m.classes.values) p.sortedModules

/-- The routine that a class or module name and the name of a routine stand for. -/
def entry? (p : Project) (type : Option String) (name : String) : Option Routine :=
  let type := type.getD ""
  if name.isEmpty then none
  else if type.isEmpty then p.anyFunction? name
  else
    let inModule := (p.modules.get? type).bind fun m => m.functions.get? name
    match inModule with
    | some d => some d.routine
    | none => p.anyMethod? type name

end Project

/-- The scope that declares the probes for an entry routine. -/
def homeOf (r : Routine) : Probe.Home :=
  ⟨r.module, r.owner⟩

end ProbeWeave.Project
