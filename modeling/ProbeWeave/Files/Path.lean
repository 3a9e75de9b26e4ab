/-!
# Paths

A path is a list of names that begins at the root or at the working directory. Empty names and
names of a single point are dropped when a path is read; `..` is kept until the path is resolved.
Two slashes in front are not the same as one and are kept.
-/

namespace ProbeWeave.Files

/-- A path. -/
structure Path where
  /-- The slashes in front: none for a path from the working directory. -/
  slashes : Nat
  names : List String
  deriving DecidableEq, Inhabited, Repr

namespace Path

/-- The path from the root through some names. -/
def absolute (names : List String) : Path :=
  ⟨1, names⟩

/-- The names of a text between slashes that stand for a step. -/
def stepsOf (s : String) : List String :=
  ((s.toList.splitOn '/').map String.ofList).filter fun name => name != "" && name != "."

/-- Reads a path. -/
def ofText (s : String) : Path :=
  let leading := (s.toList.takeWhile (· == '/')).length
  ⟨if leading == 2 then 2 else min leading 1, stepsOf s⟩

/-- How a path is written. -/
def text (p : Path) : String :=
  if p.slashes == 0 && p.names.isEmpty then "."
  else String.ofList (List.replicate p.slashes '/') ++ "/".intercalate p.names

/-- Whether a path begins at the root. -/
def isAbsolute (p : Path) : Bool :=
  p.slashes != 0

/-- The last name of a path. -/
def name (p : Path) : String :=
  p.names.getLast?.getD ""

/-- The path without its last name. -/
def parent (p : Path) : Path :=
  { p with names := p.names.dropLast }

/-- A path behind another one; an absolute path stays as it is. -/
def join (p q : Path) : Path :=
  if q.isAbsolute then q else { p with names := p.names ++ q.names }

/-- The names that lead from one path to another below it. -/
def below? (p base : Path) : Option (List String) :=
  if p.slashes == base.slashes && base.names.isPrefixOf p.names then
    some (p.names.drop base.names.length)
  else none

/-- The path as seen from a directory above it, or the path itself if it is elsewhere. -/
def relativeTo (p base : Path) : Path :=
  match p.below? base with
  | some names => ⟨0, names⟩
  | none => p

/-- Goes through names, one level up for each `..`; the root is above itself. -/
def resolveNames (start : List String) (names : List String) : List String :=
  names.foldl (fun at_ name => if name == ".." then at_.dropLast else at_ ++ [name]) start

/-- The absolute path that a path stands for in a working directory. -/
def resolve (p cwd : Path) : Path :=
  absolute (resolveNames (if p.isAbsolute then [] else cwd.names) p.names)

/-- Puts the home directory in the place of `~`; the homes of other users are not known. -/
def expandHome? (p home : Path) : Option Path :=
  match p.isAbsolute, p.names with
  | false, first :: rest =>
    if first == "~" then some (home.join ⟨0, rest⟩)
    else if first.startsWith "~" then none
    else some p
  | _, _ => some p

end Path

end ProbeWeave.Files
