import ProbeWeave.Outcome
import ProbeWeave.Proofs.Files.PathText
import ProbeWeave.Profile.Record

/-! # Profiles and their records

A profile is read back from its record, whatever its settings are: empty texts and missing paths too. A
change gives one setting a value of its type, and what it does to the record is that it puts in the value
under the name of the setting.
-/

namespace ProbeWeave

open Files

namespace Value

/-- Whether a value is a text, a whole number, an answer or nothing. -/
inductive Simple : Value → Prop where
  | null : Simple null
  | bool (b : Bool) : Simple (bool b)
  | int (n : Int) : Simple (int n)
  | text (s : String) : Simple (text s)

theorem simple_ofPath (path : Option Path) : (ofPath path).Simple := by
  cases path with
  | none => exact .null
  | some path => exact .text _

@[simp]
theorem toAnswer_bool (b : Bool) : (bool b).toAnswer = .ok b := rfl

@[simp]
theorem toWhole_int (names : KindNames) (n : Int) : (int n).toWhole names = .ok n := rfl

@[simp]
theorem toText_text (s : String) : (text s).toText = s := by
  by_cases empty : s = ""
  · rw [empty]
    rfl
  · rw [toText, if_pos (by simpa [isGiven] using empty)]
    rfl

theorem toPath_ofPath (names : KindNames) {path : Option Path} (normal : ∀ p ∈ path, p.Normal) :
    (ofPath path).toPath names = .ok path := by
  cases path with
  | none => rfl
  | some path =>
    have given : (text path.text).isGiven = true := by
      simpa [isGiven] using Path.text_ne_empty (normal path rfl)
    rw [ofPath, toPath, given]
    exact congrArg (Except.ok ∘ some) (Path.ofText_text (normal path rfl))

end Value

namespace Profile

variable {p : Profile}

/-- Whether the paths of a profile are as reading gives them. -/
structure Normal (p : Profile) : Prop where
  projectDir : ∀ path ∈ p.projectDir, path.Normal
  reportFile : ∀ path ∈ p.reportFile, path.Normal
  outputDir : ∀ path ∈ p.outputDir, path.Normal

theorem normal_blank : blank.Normal := by
  constructor <;> exact fun path member => nomatch member

@[simp]
theorem keys_record (p : Profile) : p.record.keys = fieldNames := rfl

theorem distinct_record (p : Profile) : p.record.Distinct := by
  rw [Dictionary.Distinct, keys_record]
  decide +kernel

theorem simple_of_mem_record {v : Value} (member : v ∈ p.record.values) : v.Simple := by
  have all : ∀ entry ∈ p.record.entries, entry.2.Simple := by
    simp [record, Value.simple_ofPath, Value.Simple.text, Value.Simple.bool, Value.Simple.int]
  obtain ⟨entry, inside, rfl⟩ := List.mem_map.mp member
  exact all entry inside

/-- A profile is read back from its record. -/
theorem ofRecord_record (names : Value.KindNames) (normal : p.Normal) : ofRecord names p.record = .ok p := by
  have project := Value.toPath_ofPath names normal.projectDir
  have report := Value.toPath_ofPath names normal.reportFile
  have output := Value.toPath_ofPath names normal.outputDir
  have found : ∀ entry ∈ p.record.entries, p.record.get? entry.1 = some entry.2 :=
    fun entry member => (distinct_record p).get?_eq_some.mpr member
  rw [ofRecord]
  simp only [record, List.forall_mem_cons] at found ⊢
  simp [found, project, report, output, Value.shown, bind, Except.bind, pure, Except.pure]

end Profile

/-! ### Changes -/

/-- The settings that are paths. -/
inductive PathSetting where
  | projectDir
  | reportFile
  | outputDir

/-- The settings that are texts. -/
inductive TextSetting where
  | packages
  | className
  | methodName
  | reportVariable
  | exclude

/-- The settings that are answers. -/
inductive AnswerSetting where
  | recursive
  | inPlace
  | generateReport
  | ambiguousFallback

/-- A change of one setting to a value of its type. -/
inductive Change where
  | path (setting : PathSetting) (new : Option Path)
  | text (setting : TextSetting) (new : String)
  | answer (setting : AnswerSetting) (new : Bool)
  | jobs (new : Int)

namespace Change

/-- The name of the setting. -/
def key : Change → String
  | .path .projectDir _ => "project_dir"
  | .path .reportFile _ => "report_file"
  | .path .outputDir _ => "output_dir"
  | .text .packages _ => "packages"
  | .text .className _ => "class_name"
  | .text .methodName _ => "method_name"
  | .text .reportVariable _ => "report_variable"
  | .text .exclude _ => "exclude"
  | .answer .recursive _ => "recursive"
  | .answer .inPlace _ => "overwrite_original"
  | .answer .generateReport _ => "generate_report"
  | .answer .ambiguousFallback _ => "ambiguous_fallback"
  | .jobs _ => "jobs"

/-- What the setting becomes, as a value. -/
def value : Change → Value
  | .path _ new => .ofPath new
  | .text _ new => .text new
  | .answer _ new => .bool new
  | .jobs new => .int new

/-- The profile with the setting changed. -/
def apply (p : Profile) : Change → Profile
  | .path .projectDir new => { p with projectDir := new }
  | .path .reportFile new => { p with reportFile := new }
  | .path .outputDir new => { p with outputDir := new }
  | .text .packages new => { p with packages := new }
  | .text .className new => { p with className := new }
  | .text .methodName new => { p with methodName := new }
  | .text .reportVariable new => { p with reportVariable := new }
  | .text .exclude new => { p with exclude := new }
  | .answer .recursive new => { p with recursive := new }
  | .answer .inPlace new => { p with inPlace := new }
  | .answer .generateReport new => { p with generateReport := new }
  | .answer .ambiguousFallback new => { p with ambiguousFallback := new }
  | .jobs new => { p with jobs := new }

/-- Whether a path that is given is as reading gives it. -/
def Normal : Change → Prop
  | .path _ new => ∀ p ∈ new, p.Normal
  | _ => True

variable {p : Profile} {change : Change}

/-- A change puts its value into the record, and nothing else. -/
theorem record_apply (change : Change) (p : Profile) :
    (change.apply p).record = p.record.put change.key change.value := by
  rcases change with ⟨_ | _ | _, new⟩ | ⟨_ | _ | _ | _ | _, new⟩ | ⟨_ | _ | _ | _, new⟩ | new <;>
    simp [Profile.record, Dictionary.put, Dictionary.putIn, apply, key, value]

theorem contains_key (change : Change) : Profile.fieldNames.contains change.key = true := by
  rcases change with ⟨_ | _ | _, new⟩ | ⟨_ | _ | _ | _ | _, new⟩ | ⟨_ | _ | _ | _, new⟩ | new <;>
    simp [Profile.fieldNames, Dictionary.keys, Profile.record, key]

theorem Normal.apply (normal : change.Normal) (before : p.Normal) : (change.apply p).Normal := by
  obtain ⟨project, report, output⟩ := before
  cases change with
  | path setting new =>
    cases setting with
    | projectDir => exact ⟨normal, report, output⟩
    | reportFile => exact ⟨project, normal, output⟩
    | outputDir => exact ⟨project, report, normal⟩
  | text setting new => cases setting <;> exact ⟨project, report, output⟩
  | answer setting new => cases setting <;> exact ⟨project, report, output⟩
  | jobs new => exact ⟨project, report, output⟩

end Change

end ProbeWeave
