import ProbeWeave.Files.Path
import ProbeWeave.Text.Quoted
import ProbeWeave.Text.Utf8

/-!
# File trees

A file tree lists the directories and files that exist, each with the names that lead to it from
the root. Operations that fail leave the tree as it is and say which path was at fault.
-/

namespace ProbeWeave.Files

/-- What a path leads to. -/
inductive Content where
  | directory
  | file (bytes : ByteArray)

instance : Inhabited Content := ⟨.directory⟩

/-- Why an operation on a path failed. -/
inductive FaultKind where
  | missing
  | exists
  | notDirectory
  | isDirectory
  deriving DecidableEq, Repr

/-- A failed operation. -/
structure Fault where
  kind : FaultKind
  path : Path
  deriving DecidableEq, Repr

/-- What a failed operation is reported as. -/
def Fault.message (f : Fault) : String :=
  let lead :=
    match f.kind with
    | .missing => "[Errno 2] No such file or directory: "
    | .exists => "[Errno 17] File exists: "
    | .notDirectory => "[Errno 20] Not a directory: "
    | .isDirectory => "[Errno 21] Is a directory: "
  lead ++ Text.quoted f.path.text

/-- The directories and files that exist; the root always does. -/
structure FileTree where
  entries : List (List String × Content)

instance : Inhabited FileTree := ⟨⟨[]⟩⟩

namespace FileTree

/-- What stands at the end of some names from the root. -/
def at? (t : FileTree) (names : List String) : Option Content :=
  if names.isEmpty then some .directory else t.entries.lookup names

/-- Whether names lead to a directory. -/
def isDirectory (t : FileTree) (names : List String) : Bool :=
  match t.at? names with
  | some .directory => true
  | _ => false

/-- Whether names lead to a file. -/
def isFile (t : FileTree) (names : List String) : Bool :=
  match t.at? names with
  | some (.file _) => true
  | _ => false

/--
Follows names from a directory, one level up for each `..`. All names but the last one have to
lead to directories.
-/
def follow (t : FileTree) (start : List String) : List String → Except FaultKind (List String)
  | [] => .ok start
  | name :: rest =>
    if name == ".." then t.follow start.dropLast rest
    else
      let here := start ++ [name]
      if rest.isEmpty then .ok here
      else
        match t.at? here with
        | some .directory => t.follow here rest
        | some (.file _) => .error .notDirectory
        | none => .error .missing

/-- The names from the root that a path stands for in a working directory. -/
def locate (t : FileTree) (cwd path : Path) : Except Fault (List String) :=
  (t.follow (if path.isAbsolute then [] else cwd.names) path.names).mapError (⟨·, path⟩)

/-- What a path leads to. -/
def find? (t : FileTree) (cwd path : Path) : Option Content :=
  match t.locate cwd path with
  | .ok names => t.at? names
  | .error _ => none

/-- Whether a path leads anywhere. -/
def pathExists (t : FileTree) (cwd path : Path) : Bool :=
  (t.find? cwd path).isSome

/-- The bytes of a file. -/
def read (t : FileTree) (cwd path : Path) : Except Fault ByteArray := do
  match t.at? (← t.locate cwd path) with
  | some (.file bytes) => return bytes
  | some .directory => throw ⟨.isDirectory, path⟩
  | none => throw ⟨.missing, path⟩

/-- Puts in or replaces one entry. -/
def putEntry (names : List String) (content : Content) :
    List (List String × Content) → List (List String × Content)
  | [] => [(names, content)]
  | entry :: rest =>
    if entry.1 == names then (names, content) :: rest else entry :: putEntry names content rest

/-- The tree with something else at the end of some names. -/
def put (t : FileTree) (names : List String) (content : Content) : FileTree :=
  ⟨putEntry names content t.entries⟩

/-- Writes a file whose directory has to exist. -/
def write (t : FileTree) (cwd path : Path) (bytes : ByteArray) : Except Fault FileTree := do
  let names ← t.locate cwd path
  if t.isDirectory names then throw ⟨.isDirectory, path⟩
  else
    match t.at? names.dropLast with
    | some .directory => return t.put names (.file bytes)
    | some (.file _) => throw ⟨.notDirectory, path⟩
    | none => throw ⟨.missing, path⟩

/-- Makes the directory at the end of names from the root, and those above it. -/
def makeDirectoriesAt (t : FileTree) (names : List String) : Except Fault FileTree :=
  (List.range names.length).foldlM (fun t n =>
    let here := names.take (n + 1)
    match t.at? here with
    | some .directory => .ok t
    | some (.file _) =>
      .error ⟨if n + 1 == names.length then .exists else .notDirectory, .absolute names⟩
    | none => .ok (t.put here .directory)) t

/-- The tree without something and all that is below it. -/
def remove (t : FileTree) (names : List String) : FileTree :=
  ⟨t.entries.filter fun entry => !names.isPrefixOf entry.1⟩

/-- The names directly below a directory, with what they lead to. -/
def listing (t : FileTree) (directory : List String) : List (String × Content) :=
  t.entries.filterMap fun (names, content) =>
    match names.getLast? with
    | some last => if names.dropLast == directory then some (last, content) else none
    | none => none

/-- A bound on the number of names that lead to anything. -/
def depth (t : FileTree) : Nat :=
  t.entries.foldl (fun n entry => max n entry.1.length) 0

end FileTree

/-- Names are sorted by code point. -/
def sortNames (names : List String) : List String :=
  names.mergeSort fun a b => a ≤ b

end ProbeWeave.Files
