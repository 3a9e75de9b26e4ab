import ProbeWeave.Desk.Interview

/-!
# Keeping profiles

Profiles are made, edited, switched to, shown and cleared. One request can ask for one change, and
for the current profile and the names of all profiles to be shown afterwards.
-/

namespace ProbeWeave

/-- A change to the store of profiles. -/
inductive ProfileChange where
  /-- Interviews the user and makes the profile the current and the default one. -/
  | begin
  | clear
  /-- Makes the current profile the default one. -/
  | override
  | new (name : String)
  /-- Makes a profile the current one. -/
  | switch (name : String)
  | edit (name : String)
  deriving DecidableEq, Repr

/-- What is to be done with the profiles. -/
structure ProfileRequest where
  change : Option ProfileChange
  shows : Bool
  lists : Bool
  deriving DecidableEq, Repr

namespace ProfileRequest

/-- The name that a field holds. -/
def name? (fields : Record) (key : String) : Option String :=
  match fields.get? key with
  | some (.text name) => some name
  | _ => none

/-- Whether a field says yes. -/
def isSet (fields : Record) (key : String) : Bool :=
  fields.get? key == some (.bool true)

/-- The request that fields make; of several changes the first one counts. -/
def ofFields (fields : Record) : ProfileRequest :=
  let flagged (key : String) (change : ProfileChange) : Option ProfileChange :=
    if isSet fields key then some change else none
  let named (key : String) (change : String → ProfileChange) : Option ProfileChange :=
    (name? fields key).map change
  { change := [flagged "init" .begin, flagged "clear" .clear, flagged "override" .override,
      named "new" .new, named "switch" .switch, named "edit" .edit].findSome? id
    shows := isSet fields "show"
    lists := isSet fields "list" }

end ProfileRequest

/-- The banner of the program. -/
def banner : String :=
  "\n".intercalate
    ["  _____ _              _____               _",
      " |_   _(_)_ __  ___   |_   _| _ __ _ __ | |__",
      "   | | | | '  \\/ -_)    | || '_/ _\x60 / _|| / /",
      "   |_| |_|_|_|_\\___|    |_||_| \\__,_\\__||_\\_\\ "]

namespace Task

/-- A setting of a stored profile, or nothing in its place. -/
def stored (name key : String) (absent : Value) : Task Value := do
  return (← check .store (Store.setting? (← storeRoot) name key)).getD absent

/-- The project of a stored profile as it is suggested. -/
def storedProject (name : String) : Task Value := do
  match ← stored name "project_dir" .null with
  | .null => return .text ""
  | v => return .text v.shown

/-- Sets up the first profile. -/
def beginProfiles : Task Unit := do
  say "\nWelcome to timetrack-cli!\n"
  say banner
  say ""
  say "Let's set up your profile...\n"
  let empty := Value.text ""
  let profile ← interview {
    project := ← storedProject currentName
    className := ← stored currentName "class_name" empty
    methodName := ← stored currentName "method_name" empty
    packages := ← stored currentName "packages" empty }
  save profile.record defaultName
  save profile.record currentName
  say ("Profile saved to " ++ (← get).session.storePath.text)

/-- Removes all profiles once the user confirms it. -/
def clearProfiles : Task Unit := do
  say "Are you sure you want to clear all timetrack-cli profiles? This action cannot be undone. (y/N): "
  if Text.lower (← readLine) == "y" then
    modify fun desk => { desk with session := desk.session.clear }
    say "All timetrack-cli profiles cleared."
  else say "Aborting..."

/-- Makes the current profile the default one. -/
def overrideDefault : Task Unit := do
  save (← load none) defaultName

/-- Makes a profile of a name that is not taken. -/
def newProfile (name : String) : Task Unit := do
  let root ← storeRoot
  if name.isEmpty then throw .emptyName
  if ← check .store (Store.contains root name) then throw (.nameTaken name)
  let profile ← interview {
    project := ← storedProject defaultName
    packages := ← stored defaultName "packages" (.text "") }
  save profile.record name

/-- The table of the settings of a profile. -/
def settingsTable (title : String) (r : Record) : Text.Table :=
  ⟨title, ["Key", "Value"], r.entries.map fun (key, value) => [key, value.shown]⟩

/-- Makes a profile the current one and shows it. -/
def switchProfile (name : String) : Task Unit := do
  if !(← check .store (Store.contains (← storeRoot) name)) then throw (.noSuchProfile name)
  save (← load (some name)) currentName
  say "Switched to:"
  sayTable (settingsTable ("PROFILE: " ++ name) (← load none))

/-- Shows the current profile. -/
def showProfile : Task Unit := do
  say ""
  say banner
  say ""
  say " Current timetrack-cli profile:\n"
  sayTable (settingsTable "CURRENT PROFILE" (← load none))

/-- Shows the names of all profiles but the current one. -/
def listProfiles : Task Unit := do
  say " Available timetrack-cli profiles:\n"
  let names ← check .store (Store.names (← storeRoot))
  if names.isEmpty then say "No profiles found."
  else (names.filter (· != currentName)).forM fun name => say (" - " ++ name)
  say ""

/-- A profile with the settings that no interview asks for taken from another one. -/
def keepUnasked (old new : Profile) : Profile :=
  { new with
    reportVariable := old.reportVariable
    reportFile := old.reportFile
    generateReport := old.generateReport
    exclude := old.exclude
    ambiguousFallback := old.ambiguousFallback
    jobs := old.jobs }

/-- What an interview suggests when a profile is edited. -/
def suggestionsOf (p : Profile) : Suggestions :=
  { project := .text ((p.projectDir.map Files.Path.text).getD "")
    packages := .text p.packages
    className := .text p.className
    methodName := .text p.methodName
    recursive := p.recursive
    overwrite := p.inPlace
    output := p.outputDir.map Files.Path.text }

/-- Edits a profile. -/
def editProfile (name : String) : Task Unit := do
  let old ← check .record (Profile.ofRecord Value.plainKinds (← load (some name)))
  say ("Editing profile '" ++ name ++ "'. Press Enter to keep existing values.\n")
  let new ← interview (suggestionsOf old)
  save (keepUnasked old new).record name
  say "\nProfile updated successfully."

/-- Makes a change to the store. -/
def changeProfiles : ProfileChange → Task Unit
  | .begin => beginProfiles
  | .clear => clearProfiles
  | .override => overrideDefault
  | .new name => newProfile name
  | .switch name => switchProfile name
  | .edit name => editProfile name

/-- Does what a request asks for. -/
def keepProfiles (request : ProfileRequest) : Task Unit := do
  request.change.forM changeProfiles
  if request.shows then showProfile
  if request.lists then listProfiles

end Task

end ProbeWeave
