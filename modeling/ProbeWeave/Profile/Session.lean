import ProbeWeave.Profile.Store

/-!
# Sessions

A session works on the store of profiles. A profile that was loaded is remembered, the current one
apart from the one of its name, until a profile is saved; what others write to the file in between
does not show. Changing a setting changes the remembered current profile and then saves it.
-/

namespace ProbeWeave

open Files

/-- A session: the files, and the profiles that were loaded, `none` for the current one. -/
structure Session where
  format : StoreFormat
  world : World
  loaded : Dictionary (Option String) Record

namespace Session

/-- A session in which nothing was loaded. -/
def begin (format : StoreFormat) (world : World) : Session :=
  ⟨format, world, .empty⟩

/-- Where the store is. -/
def storePath (s : Session) : Path :=
  s.world.home.join (.ofText ".timetrack-cli/profiles.yaml")

/-- What the store holds. -/
def root (s : Session) : Except StoreFault (Option Yaml.Node) := do
  if s.world.pathExists s.storePath then
    let text ← (s.world.readText s.storePath).mapError .unreadable
    match s.format.read? text with
    | some root => return root
    | none => throw .malformed
  else return none

/-- Reads a profile from the store. -/
def fetch (s : Session) (name : String) : Except StoreFault Record := do
  return (← Store.profile (← s.root) name).record

/-- Loads the profile of a name, or the current one. -/
def load (key : Option String) (s : Session) : Except StoreFault Record × Session :=
  match s.loaded.get? key with
  | some record => (.ok record, s)
  | none =>
    match s.fetch (key.getD currentName) with
    | .ok record => (.ok record, { s with loaded := s.loaded.put key record })
    | .error fault => (.error fault, s)

/-- Forgets what was loaded. -/
def forget (s : Session) : Session :=
  { s with loaded := .empty }

/-- The files with another text in the store. -/
def writeStore (s : Session) (text : String) : Except StoreFault World := do
  let path := s.storePath
  let tree ← (s.world.tree.makeDirectoriesAt path.parent.names).mapError .unwritable
  return s.world.withTree (← (tree.write s.world.cwd path text.toUTF8).mapError .unwritable)

/-- Saves settings under a name. -/
def save (record : Record) (name : String) (s : Session) : Except StoreFault Unit × Session :=
  let written : Except StoreFault World := do
    let root ← Store.put (← s.root) name record
    s.writeStore (s.format.write root)
  match written with
  | .ok world => (.ok (), { s with world }.forget)
  | .error fault => (.error fault, s)

/-- Removes the store and forgets what was loaded. -/
def clear (s : Session) : Session :=
  { s with world := s.world.withTree (s.world.tree.remove s.storePath.names) }.forget

/-- Changes one setting of the current profile and saves it. -/
def update (key : String) (value : Value) (s : Session) : Except StoreFault Unit × Session :=
  if !Profile.fieldNames.contains key then (.error (.unknownKey key), s)
  else
    match s.load none with
    | (.error fault, s) => (.error fault, s)
    | (.ok record, s) =>
      let changed := record.put key value
      save changed currentName { s with loaded := s.loaded.put none changed }

end Session

end ProbeWeave
