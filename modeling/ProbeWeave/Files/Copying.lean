import ProbeWeave.Files.Tree
import ProbeWeave.Text.Glob

/-!
# Copying a directory

A directory is copied with all that is below it, into one that may exist already. Names that match
a pattern are left out at every level. What cannot be copied is noted, and the rest is copied all
the same; only if the directory itself cannot be copied nothing is.
-/

namespace ProbeWeave.Files

/-- Something that was not copied. -/
inductive EntryFault where
  | failed (source : Path) (target : Path) (reason : String)
  /-- A file would be copied onto itself. -/
  | same (name : String) (target : Path)
  deriving DecidableEq, Repr

/-- The parts of the list in which a fault is reported. -/
def EntryFault.parts : EntryFault → List String
  | failed source target reason =>
    ["(" ++ ", ".intercalate ([source.text, target.text, reason].map Text.quoted) ++ ")"]
  | same name target =>
    ("<DirEntry " ++ Text.quoted name ++ "> and " ++ Text.quoted target.text ++
      " are the same file").toList.map fun c => Text.quoted c.toString

/-- Why a directory was not copied as a whole. -/
inductive CopyFault where
  /-- Nothing was copied. -/
  | refused (fault : Fault)
  /-- All the rest was copied. -/
  | incomplete (faults : List EntryFault)
  deriving DecidableEq, Repr

/-- What a fault is reported as. -/
def CopyFault.message : CopyFault → String
  | refused fault => fault.message
  | incomplete faults => "[" ++ ", ".intercalate (faults.flatMap EntryFault.parts) ++ "]"

namespace FileTree

/-- Makes a directory to copy into; the error names the directory that could not be made. -/
def makeTarget (t : FileTree) (names : List String) : Except Fault FileTree :=
  (List.range names.length).foldlM (fun t n =>
    let here := names.take (n + 1)
    match t.at? here with
    | some .directory => .ok t
    | some (.file _) =>
      if n + 1 == names.length then .error ⟨.exists, .absolute here⟩
      else .error ⟨.notDirectory, .absolute (names.take (n + 2))⟩
    | none => .ok (t.put here .directory)) t

/-- Copies a file, into the target if that is a directory. -/
def copyFile (t : FileTree) (source target : List String) (name : String) (bytes : ByteArray) :
    FileTree × List EntryFault :=
  let goal := if t.isDirectory target then target ++ [name] else target
  if goal == source then (t, [.same name (.absolute goal)])
  else if t.isDirectory goal then
    let fault : Fault := ⟨.isDirectory, .absolute goal⟩
    (t, [.failed (.absolute source) (.absolute target) fault.message])
  else (t.put goal (.file bytes), [])

/-- Copies what a directory lists, given how directories in it are copied. -/
def copyEntries
    (copy : FileTree → List String → List String → FileTree × Except Fault (List EntryFault))
    (source target : List String) :
    List (String × Content) → FileTree → FileTree × List EntryFault
  | [], t => (t, [])
  | (name, _) :: rest, t =>
    let origin := source ++ [name]
    let goal := target ++ [name]
    let (t, faults) :=
      match t.at? origin with
      | some (.file bytes) => t.copyFile origin goal name bytes
      | _ =>
        match copy t origin goal with
        | (t, .ok faults) => (t, faults)
        | (t, .error fault) => (t, [.failed (.absolute origin) (.absolute goal) fault.message])
    let (t, more) := copyEntries copy source target rest t
    (t, faults ++ more)

/-- Whether a name is left out. -/
def isLeftOut (patterns : List String) (name : String) : Bool :=
  patterns.any fun pattern => Text.globMatches pattern name

/-- Copies a directory, given a bound on the levels. -/
def copyWithin (patterns : List String) :
    Nat → FileTree → List String → List String → FileTree × Except Fault (List EntryFault)
  | 0, t, _, _ => (t, .ok [])
  | levels + 1, t, source, target =>
    match t.at? source with
    | none => (t, .error ⟨.missing, .absolute source⟩)
    | some (.file _) => (t, .error ⟨.notDirectory, .absolute source⟩)
    | some .directory =>
      let entries := (t.listing source).filter fun entry => !isLeftOut patterns entry.1
      match t.makeTarget target with
      | .error fault => (t, .error fault)
      | .ok t =>
        let (t, faults) := copyEntries (copyWithin patterns levels) source target entries t
        (t, .ok faults)

/-- Copies a directory with all that is below it and matches no pattern. -/
def copyDirectory (t : FileTree) (patterns : List String) (source target : List String) :
    FileTree × Except CopyFault Unit :=
  match copyWithin patterns (2 * t.depth + target.length + 2) t source target with
  | (t, .error fault) => (t, .error (.refused fault))
  | (t, .ok []) => (t, .ok ())
  | (t, .ok faults) => (t, .error (.incomplete faults))

end FileTree

end ProbeWeave.Files
