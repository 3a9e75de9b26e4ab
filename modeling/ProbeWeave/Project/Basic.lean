import ProbeWeave.Project.Module
import ProbeWeave.Files.Tree

/-!
# Projects

A project is the modules below a directory, each known by its name. Routines point into it: the
module tells where a routine was defined and its ordinal which of the definitions there it is.
-/

namespace ProbeWeave.Project

open Graph

/-- The modules of a project and how calls in it are resolved. -/
structure Project where
  root : Files.Path
  modules : Dictionary String Module
  /-- The prefixes of the modules that are the project's own; none means all are. -/
  packages : List String
  /-- Whether calls on unknown receivers go to the only method of that name. -/
  guesses : Bool

namespace Project

/-- The names of the modules, sorted. -/
def sortedNames (p : Project) : List String :=
  Files.sortNames p.modules.keys

/-- The modules in the order of their names. -/
def sortedModules (p : Project) : List Module :=
  p.sortedNames.filterMap p.modules.get?

/-- The definition of a routine. -/
def definition? (p : Project) (r : Routine) : Option Definition := do
  (← p.modules.get? r.module).definitions[r.ordinal]?

/-- The class that a method belongs to by its name: of classes of one name the last. -/
def classOf? (p : Project) (r : Routine) : Option ClassInfo := do
  (← p.modules.get? r.module).classes.get? (← r.owner)

/-- The methods of one name, in all classes of all modules. -/
def methodsNamed (p : Project) (name : String) : List Definition :=
  p.modules.values.flatMap fun m =>
    m.definitions.filter fun d => d.routine.owner.isSome && d.routine.name == name

-- A sum of numbers begins at the numeral, whatever other zeros are known.
attribute [local instance (2000)] Zero.ofOfNat0

/-- The number of classes. -/
def classCount (p : Project) : Nat :=
  (p.modules.values.map fun m => m.classes.entries.length).sum

/-- Whether a routine is the project's own. -/
def owns (p : Project) (r : Routine) : Bool :=
  p.modules.contains r.module &&
    (p.packages.isEmpty ||
      p.packages.any fun package => r.module == package || r.module.startsWith (package ++ "."))

end Project

end ProbeWeave.Project
