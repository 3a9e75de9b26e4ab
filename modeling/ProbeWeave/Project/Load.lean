import ProbeWeave.Event
import ProbeWeave.Files.Tree
import ProbeWeave.Files.World
import ProbeWeave.Project.Basic

/-!
# Reading a project

All modules below a directory are read, those of a directory before those of its subdirectories and
both in the order of their names. Directories that hold no code of the project are passed over. A
file that cannot be read or parsed is left out with a warning. Modules are named from the directory
`src` if there is one, so two files can have one name; the first of them counts.
-/

namespace ProbeWeave.Project

open Syntax Files

/-- The names of files and directories that hold no code of a project. -/
def ignoredNames : List String :=
  [".git", ".hg", ".svn", "__pycache__", ".venv", "venv", "env", ".env", ".tox", ".nox",
   ".mypy_cache", ".pytest_cache", ".ruff_cache", "build", "dist", "site-packages",
   "node_modules", ".timetrack"]

/-- Whether a directory is searched for modules. -/
def isSearched (name : String) : Bool :=
  !ignoredNames.contains name && !name.endsWith ".egg-info"

/-- The ending of the names of modules. -/
def moduleEnding : String := ".py"

/-- The files of modules below a directory, given a bound on the levels. -/
def moduleFiles (t : FileTree) : Nat → List String → List (List String)
  | 0, _ => []
  | levels + 1, directory =>
    let (directories, files) := (t.listing directory).partition fun (_, content) =>
      match content with
      | .directory => true
      | .file _ => false
    let modules := (files.map Prod.fst).filter (·.endsWith moduleEnding)
    (sortNames modules).map (directory ++ [·]) ++
      (sortNames ((directories.map Prod.fst).filter isSearched)).flatMap fun name =>
        moduleFiles t levels (directory ++ [name])

/-- The name of a file without its ending. -/
def stemOf (file : String) : String :=
  if file == moduleEnding then file else (file.dropEnd moduleEnding.length).toString

/-- The name of a module, given the names that lead to its file, and whether it is a package. -/
def moduleName (names : List String) : String × Bool :=
  let parts := names.dropLast ++ [stemOf (names.getLast?.getD "")]
  if parts.getLast? == some "__init__" then (".".intercalate parts.dropLast, true)
  else (".".intercalate parts, false)

/-- A module, or why it is left out or cannot be dealt with. -/
inductive UnitOutcome where
  | unit (unit : SourceUnit)
  | leftOut (reason : String)
  | fault (fault : Fault)

/-- Reads the module in a file below the directory of a project. -/
def readUnit (root : List String) (hasSources : Bool) (names : List String) (bytes : ByteArray) :
    UnitOutcome :=
  let path := Path.absolute names
  match Text.Utf8.decode (bytes.toList.map UInt8.toNat) with
  | .error fault => .leftOut ("Could not read " ++ path.text ++ ": " ++ fault.message)
  | .ok source =>
    match parseModule source with
    | .error .zeroCharacter => .fault .zeroCharacter
    | .error _ => .leftOut ("Could not parse " ++ path.text ++ ": <syntax error>")
    | .ok body =>
      let relative := names.drop root.length
      let (name, isPackage) :=
        moduleName (if hasSources && relative.head? == some "src" then relative.drop 1 else relative)
      .unit ⟨path, ⟨0, relative⟩, name, isPackage, source, body⟩

/-- Adds the modules in files one after the other; also gives the warnings. -/
def addFiles (t : FileTree) (root : List String) (hasSources : Bool) :
    List (List String) → Dictionary String Module → Except Fault (Dictionary String Module) × List Event
  | [], modules => (.ok modules, [])
  | names :: rest, modules =>
    match t.at? names with
    | some (.file bytes) =>
      match readUnit root hasSources names bytes with
      | .fault fault => (.error fault, [])
      | .leftOut reason =>
        let (result, events) := addFiles t root hasSources rest modules
        (result, ⟨.warning, reason, some (.absolute names)⟩ :: events)
      | .unit unit =>
        addFiles t root hasSources rest
          (if unit.name.isEmpty || modules.contains unit.name then modules
            else modules.put unit.name unit.index)
    | _ => addFiles t root hasSources rest modules

/-- Reads the project below a directory; also gives the warnings. -/
def load (t : FileTree) (root : List String) (packages : List String) (guesses : Bool) :
    Except Fault Project × List Event :=
  let files := moduleFiles t (t.depth + 1) root
  let (modules, events) := addFiles t root (t.isDirectory (root ++ ["src"])) files .empty
  let project := do
    let entries ← (← modules).entries.mapM fun (name, m) => return (name, ← m.withAttributes)
    return ⟨.absolute root, ⟨entries⟩, packages.filter (· != ""), guesses⟩
  (project, events)

/-! ### Opening a project

A project is opened by the path of its directory, which has to exist. -/

/-- Why there is no project at a path. -/
inductive OpenFault where
  /-- The home of another user is not known. -/
  | noHome
  | missing (shown : String)
  | notDirectory (shown : String)
  | unusable (fault : Fault)
  deriving DecidableEq, Repr

/-- What a fault is reported as. -/
def OpenFault.message : OpenFault → String
  | noHome => "Could not determine home directory."
  | missing shown => "Project directory not found: " ++ shown
  | notDirectory shown => "Project path " ++ shown ++ " is not a directory."
  | unusable fault => fault.message

/-- Opens the project at a path, which messages show as it was written; also gives the warnings. -/
def openAt (w : World) (shown : String) (packages : List String) (guesses : Bool) :
    Except OpenFault Project × List Event :=
  match w.resolve? (.ofText shown) with
  | none => (.error .noHome, [])
  | some root =>
    match w.tree.at? root.names with
    | none => (.error (.missing shown), [])
    | some (.file _) => (.error (.notDirectory shown), [])
    | some .directory =>
      let (project, events) := load w.tree root.names packages guesses
      (project.mapError .unusable, events)

end ProbeWeave.Project
