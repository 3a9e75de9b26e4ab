import ProbeWeave.Files.Tree
import ProbeWeave.Text.Lines

/-!
# Where a program runs

The files that exist, the working directory and the home directory. A file that is read as a text
has to be UTF-8; all line breaks become newlines.
-/

namespace ProbeWeave.Files

/-- The files that exist and the two directories that paths can begin at. -/
structure World where
  tree : FileTree
  cwd : Path
  home : Path
  deriving Inhabited

/-- Why a file cannot be read as a text. -/
inductive ReadFault where
  | file (fault : Fault)
  | encoding (fault : Text.Utf8.Fault)
  deriving DecidableEq, Repr

/-- What a fault is reported as. -/
def ReadFault.message : ReadFault → String
  | file fault => fault.message
  | encoding fault => fault.message

namespace World

/-- The absolute path that a path stands for; `~` of another user stands for none. -/
def resolve? (w : World) (p : Path) : Option Path :=
  (p.expandHome? w.home).map (·.resolve w.cwd)

/-- Whether a path leads anywhere. -/
def pathExists (w : World) (p : Path) : Bool :=
  w.tree.pathExists w.cwd p

/-- The world with other files. -/
def withTree (w : World) (tree : FileTree) : World :=
  { w with tree }

/-- The text of a file. -/
def readText (w : World) (path : Path) : Except ReadFault String := do
  let bytes ← (w.tree.read w.cwd path).mapError .file
  let text ← (Text.Utf8.decode (bytes.toList.map UInt8.toNat)).mapError .encoding
  return String.ofList (Text.unifyBreaks text.toList)

end World

end ProbeWeave.Files
