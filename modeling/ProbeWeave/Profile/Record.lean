import ProbeWeave.Dictionary
import ProbeWeave.Number.Whole
import ProbeWeave.Profile.Basic
import ProbeWeave.Text.Character
import ProbeWeave.Text.Lowercase
import ProbeWeave.Value

/-!
# Records of settings

A record gives settings by their names, with values of any kind. A profile is read from a record
leniently: what is missing has its default, a text may be given as a number, an answer as a word,
and an empty path is none. Fields are read in a fixed order and the first that does not fit is
reported.
-/

namespace ProbeWeave

open Files

/-! ### Yes and no

The words that are understood as an answer to a question. Case and blanks around a word do not
matter. -/

/-- The words for yes. -/
def yesWords : List String :=
  ["y", "yes", "true", "1", "on"]

/-- The words for no. -/
def noWords : List String :=
  ["n", "no", "false", "0", "off"]

/-- What a text answers. -/
def yesOrNo? (s : String) : Option Bool :=
  let word := Text.lower (Text.strip s)
  if yesWords.contains word then some true
  else if noWords.contains word then some false
  else none

/-- The word that stands for an answer in a prompt. -/
def answerWord (b : Bool) : String :=
  if b then "y" else "n"

theorem yesOrNo?_answerWord (b : Bool) : yesOrNo? (answerWord b) = some b := by
  cases b <;> decide +kernel

/-! ### Records -/

/-- Settings by their names. -/
abbrev Record := Dictionary String Value

/-- Why a record is no profile. -/
inductive RecordFault where
  | notPath (kind : String)
  | notAnswer (shown : String)
  | notNumber (kind : String)
  | notWhole (fault : Number.WholeFault)
  | notFinite (fault : Number.NotFinite)
  deriving DecidableEq, Repr

/-- What a fault is reported as. -/
def RecordFault.message : RecordFault → String
  | notPath kind => "expected str, bytes or os.PathLike object, not " ++ kind
  | notAnswer shown => "Expected yes or no, got '" ++ shown ++ "'."
  | notNumber kind =>
    "int() argument must be a string, a bytes-like object or a real number, not '" ++ kind ++ "'"
  | notWhole fault => fault.message
  | notFinite fault => fault.message

namespace Value

/-- A value as an answer to a question. -/
def toAnswer (v : Value) : Except RecordFault Bool :=
  match v with
  | bool b => .ok b
  | v =>
    match yesOrNo? v.shown with
    | some b => .ok b
    | none => .error (.notAnswer v.shown)

/-- A value as a whole number. -/
def toWhole (names : KindNames) : Value → Except RecordFault Int
  | bool b => .ok (if b then 1 else 0)
  | int n => .ok n
  | float bits => (Number.wholePart bits).mapError .notFinite
  | text s => (Number.readWhole s).mapError .notWhole
  | v => .error (.notNumber (v.kindName names))

/-- A value as a path; one that does not count as given is none. -/
def toPath (names : KindNames) (v : Value) : Except RecordFault (Option Path) :=
  if !v.isGiven then .ok none
  else
    match v with
    | text s => .ok (some (.ofText s))
    | v => .error (.notPath (v.kindName names))

/-- A value as a text; one that does not count as given is empty. -/
def toText (v : Value) : String :=
  if v.isGiven then v.shown else ""

/-- A path as a value. -/
def ofPath (p : Option Path) : Value :=
  match p with
  | some p => text p.text
  | none => null

end Value

namespace Profile

/-- The record of a profile. -/
def record (p : Profile) : Record :=
  ⟨[("project_dir", .ofPath p.projectDir),
    ("packages", .text p.packages),
    ("class_name", .text p.className),
    ("method_name", .text p.methodName),
    ("report_variable", .text p.reportVariable),
    ("report_file", .ofPath p.reportFile),
    ("recursive", .bool p.recursive),
    ("overwrite_original", .bool p.inPlace),
    ("output_dir", .ofPath p.outputDir),
    ("generate_report", .bool p.generateReport),
    ("exclude", .text p.exclude),
    ("ambiguous_fallback", .bool p.ambiguousFallback),
    ("jobs", .int p.jobs)]⟩

/-- The names of all settings. -/
def fieldNames : List String :=
  blank.record.keys

/-- Reads a profile from a record. -/
def ofRecord (names : Value.KindNames) (r : Record) : Except RecordFault Profile := do
  let d := blank
  let path (key : String) : Except RecordFault (Option Path) :=
    match r.get? key with
    | some v => v.toPath names
    | none => .ok none
  let text (key default : String) : String := ((r.get? key).map Value.toText).getD default
  let answer (key : String) (default : Bool) : Except RecordFault Bool :=
    match r.get? key with
    | some v => v.toAnswer
    | none => .ok default
  return {
    projectDir := ← path "project_dir"
    packages := text "packages" d.packages
    className := text "class_name" d.className
    methodName := text "method_name" d.methodName
    reportVariable := ((r.get? "report_variable").map Value.shown).getD d.reportVariable
    reportFile := ← path "report_file"
    recursive := ← answer "recursive" d.recursive
    inPlace := ← answer "overwrite_original" d.inPlace
    outputDir := ← path "output_dir"
    generateReport := ← answer "generate_report" d.generateReport
    exclude := text "exclude" d.exclude
    ambiguousFallback := ← answer "ambiguous_fallback" d.ambiguousFallback
    jobs := ←
      match r.get? "jobs" with
      | some v => v.toWhole names
      | none => .ok d.jobs }

end Profile

/-- A record with the settings that others give for it; those that are nothing give none. -/
def Record.override (r overrides : Record) : Record :=
  ⟨r.entries.map fun (key, v) =>
    match overrides.get? key with
    | none | some .null => (key, v)
    | some new => (key, new)⟩

end ProbeWeave
