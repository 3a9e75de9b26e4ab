import ProbeWeave.Desk.Program

/-!
# The command line

The files that a run may look at are named on standard input, one on each line, up to an empty line.
What follows is what the user types: an empty line takes what a prompt suggests. Files that the run
changes are written when it ends.
-/

namespace ProbeWeave

open Files

/-- The lines of standard input up to the first empty one, and the others. -/
def splitInput (lines : List String) : List String × List String :=
  (lines.takeWhile (!·.isEmpty), (lines.dropWhile (!·.isEmpty)).drop 1)

/-- Everything on standard input. -/
partial def readLines (input : IO.FS.Stream) : IO (List String) := do
  let line ← input.getLine
  if line.isEmpty then return []
  else
    let rest ← readLines input
    return Text.withoutBreak line :: rest

/-- The tree with one more file. -/
def addFile (cwd : Path) (tree : FileTree) (name : String) : IO FileTree := do
  let path := (Path.ofText name).resolve cwd
  let bytes ← IO.FS.readBinFile path.text
  let tree := (tree.makeDirectoriesAt path.parent.names).toOption.getD tree
  return tree.put path.names (.file bytes)

/-- Writes one file if its bytes changed. -/
def writeChanged (old : FileTree) (entry : List String × Content) : IO Unit := do
  let path := Path.absolute entry.1
  match entry.2, old.at? entry.1 with
  | .directory, _ => IO.FS.createDirAll path.text
  | .file bytes, some (.file before) =>
    if bytes != before then IO.FS.writeBinFile path.text bytes
  | .file bytes, _ => IO.FS.writeBinFile path.text bytes

/-- Removes one file if it is gone. -/
def removeGone (new : FileTree) (entry : List String × Content) : IO Unit := do
  if (new.at? entry.1).isNone then IO.FS.removeFile (Path.absolute entry.1).text

/-- The code that a run ends with, and what is said where errors are. -/
def endOf : Except TaskFault Unit → UInt32 × String
  | .ok () => (0, "")
  | .error (.stop (.help _)) => (0, "")
  | .error (.stop stop@(.misuse usage ..)) => (2, usage ++ stop.message ++ "\n")
  | .error fault => (1, fault.message ++ "\n")

end ProbeWeave

open ProbeWeave Files in
/-- Runs the program. -/
def main (args : List String) : IO UInt32 := do
  let (names, typed) := splitInput (← readLines (← IO.getStdin))
  let cwd := Path.ofText (toString (← IO.currentDir))
  let home := Path.ofText ((← IO.getEnv "HOME").getD "/")
  let start := ([cwd, home].map Path.names).foldl
    (fun tree names => (tree.makeDirectoriesAt names).toOption.getD tree) default
  let tree ← names.foldlM (addFile cwd) start
  let answers := typed.map fun line => if line.isEmpty then none else some line
  let desk := Desk.begin (.begin .yaml ⟨tree, cwd, home⟩) answers typed
  let (result, desk) := desk.run args
  IO.print desk.output
  let after := desk.session.world.tree
  tree.entries.forM (removeGone after)
  after.entries.forM (writeChanged tree)
  let (code, complaint) := endOf result
  IO.eprint complaint
  return code
