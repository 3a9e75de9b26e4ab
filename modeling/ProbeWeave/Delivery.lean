import ProbeWeave.Files.Copying
import ProbeWeave.Instrumentation

/-!
# Writing instrumented modules

The modules of a project are replaced in place or, if they are to stay as they are, the project is
copied first and the modules are replaced in the copy. A module that cannot be written is left out
with a warning.
-/

namespace ProbeWeave

open Files Weaving

/-- Why no module was written. -/
inductive DeliveryFault where
  | noOutput
  /-- The output would be the project itself. -/
  | ontoProject (output : Path)
  | noHome
  | notCopied (fault : CopyFault)
  deriving DecidableEq, Repr

/-- What a fault is reported as. -/
def DeliveryFault.message : DeliveryFault → String
  | noOutput => "No output directory configured and overwrite_original is off."
  | ontoProject output =>
    "Output directory " ++ output.text ++
      " is the project directory; set overwrite_original instead."
  | noHome => "Could not determine home directory."
  | notCopied fault => fault.message

/-- What came of writing modules. -/
structure Delivery where
  tree : FileTree
  events : List Event
  written : Except DeliveryFault (List Path)

namespace Delivery

/-- What is left out of a copy. A copy inside of the project is not copied into itself. -/
def leftOut (project output : Path) : List String :=
  Project.ignoredNames ++
    match output.below? project with
    | some (first :: _) => [first]
    | _ => []

/-- Copies a project. -/
def copyProject (t : FileTree) (project output : Path) :
    FileTree × Except DeliveryFault Unit :=
  if output == project then (t, .error (.ontoProject output))
  else
    let (t, result) := t.copyDirectory (leftOut project output) project.names output.names
    (t, result.mapError .notCopied)

/-- Writes the text of a module, making the directories above it. -/
def writeUnit (t : FileTree) (cwd target : Path) (source : String) : Except Fault FileTree := do
  (← t.makeDirectoriesAt target.parent.names).write cwd target source.toUTF8

/-- Writes modules to their targets: the files, what happened, and the targets written. -/
def writeAll (cwd : Path) :
    List (WovenUnit × Path) → FileTree → FileTree × List Event × List Path
  | [], t => (t, [], [])
  | (unit, target) :: rest, t =>
    match writeUnit t cwd target unit.source with
    | .ok t =>
      let (t, events, written) := writeAll cwd rest t
      (t, ⟨.file, unit.unit.relative.text, some target⟩ :: events, target :: written)
    | .error fault =>
      let (t, events, written) := writeAll cwd rest t
      (t, ⟨.warning, "Could not write: " ++ fault.message, some target⟩ :: events, written)

/-- Writes modules in place or to a copy of their project. -/
def run (w : World) (units : List WovenUnit) (profile : Profile) : Delivery :=
  let finish (t : FileTree) (targets : List (WovenUnit × Path)) : Delivery :=
    let (t, events, written) := writeAll w.cwd targets t
    ⟨t, events, .ok written⟩
  if profile.inPlace then
    finish w.tree (units.map fun unit => (unit, unit.unit.path))
  else
    match profile.outputDir with
    | none => ⟨w.tree, [], .error .noOutput⟩
    | some output =>
      match w.resolve? (profile.projectDir.getD default), w.resolve? output with
      | some project, some output =>
        match copyProject w.tree project output with
        | (t, .error fault) => ⟨t, [], .error fault⟩
        | (t, .ok ()) => finish t (units.map fun unit => (unit, output.join unit.unit.relative))
      | _, _ => ⟨w.tree, [], .error .noHome⟩

end Delivery

end ProbeWeave
