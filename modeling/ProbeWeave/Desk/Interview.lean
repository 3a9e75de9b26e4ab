import ProbeWeave.Desk.Basic
import ProbeWeave.Profile.Record
import ProbeWeave.Text.Identifier

/-!
# Questions and interviews

A question suggests an answer, which the user may take, and judges what it gets. As long as it
refuses the answers it is put again. A profile is made from the answers to a few questions.
-/

namespace ProbeWeave

open Files

/-- What a question makes of an answer. -/
inductive Verdict (α : Type) where
  | accepted (value : α)
  | refused (message : String)
  | failed (fault : TaskFault)

/-- A question with an answer that it suggests. -/
structure Question (α : Type) where
  text : String
  default : Value
  judge : String → Verdict α

/-- What came of a question: its result, the answers that are left, and what was shown. -/
structure Asked (α : Type) where
  result : Except TaskFault α
  answers : List (Option String)
  prompts : List Prompt

namespace Question

/-- Puts a question until an answer is accepted. -/
def put {α : Type} (q : Question α) : List (Option String) → Asked α
  | [] => ⟨.error .noAnswers, [], []⟩
  | answer :: rest =>
    match answer.elim q.default Value.text with
    | .text text =>
      match q.judge text with
      | .accepted v => ⟨.ok v, rest, [⟨q.text, q.default, .text text, none⟩]⟩
      | .failed fault => ⟨.error fault, rest, []⟩
      | .refused message =>
        let prompt : Prompt := ⟨q.text, q.default, .text text, some ⟨message, text.length⟩⟩
        let asked := q.put rest
        { asked with prompts := prompt :: asked.prompts }
    | v => ⟨.error (.notText (v.kindName Yaml.Node.kinds)), rest, [⟨q.text, q.default, v, none⟩]⟩

/-- A question for any text; blanks around it do not count. -/
def forText (text : String) (default : Value) : Question String :=
  ⟨text, default, fun s => .accepted (Text.strip s)⟩

/-- A question for the name of something that is defined. -/
def forIdentifier (text : String) (default : Value) : Question String :=
  ⟨text, default, fun s =>
    if Text.isIdentifier (Text.strip s) then .accepted (Text.strip s)
    else .refused "Must be a valid Python identifier."⟩

/-- A question for yes or no. -/
def forAnswer (text : String) (default : Bool) : Question Bool :=
  ⟨text, .text (answerWord default), fun s =>
    match yesOrNo? s with
    | some b => .accepted b
    | none => .refused "Answer y or n."⟩

/-- A question for a path that leads somewhere. -/
def forExisting (w : World) (text : String) (default : Value) : Question String :=
  ⟨text, default, fun s =>
    match (Path.ofText s).expandHome? w.home with
    | none => .failed .noHome
    | some path =>
      if w.pathExists path then .accepted (Text.strip s) else .refused "Path does not exist."⟩

end Question

/-- Puts a question to the user. -/
def Task.ask {α : Type} (q : Question α) : Task α := do
  let desk ← get
  let asked := q.put desk.answers
  set { desk with answers := asked.answers, prompts := desk.prompts ++ asked.prompts }
  check id asked.result

/-! ### The interview for a profile

Paths are kept absolute. Where the copy of the project goes is asked only if the project itself is
not overwritten; a directory beside the project is suggested. -/

/-- What an interview suggests. -/
structure Suggestions where
  project : Value := .text ""
  packages : Value := .text ""
  className : Value := .text ""
  methodName : Value := .text ""
  recursive : Bool := true
  overwrite : Bool := false
  output : Option String := none

/-- The absolute path that an answer stands for. -/
def Task.resolve (answer : String) : Task Path := do
  match (← Task.world).resolve? (.ofText answer) with
  | some path => return path
  | none => throw .noHome

/-- Where the copy of a project goes if nothing else is said. -/
def besideProject (project : Path) : Path :=
  project.parent.join ⟨0, [project.name ++ "_timed"]⟩

/-- Makes a profile from the answers of the user. -/
def interview (suggested : Suggestions) : Task Profile := do
  let directory ← Task.ask (.forExisting (← Task.world) "Project directory: " suggested.project)
  let packages ← Task.ask
    (.forText "Project packages (comma-separated, optional): " suggested.packages)
  let className ← Task.ask
    (.forText "Entry class (empty for a module function): " suggested.className)
  let methodName ← Task.ask (.forIdentifier "Entry method: " suggested.methodName)
  let recursive ← Task.ask (.forAnswer "Follow calls recursively? (y/n): " suggested.recursive)
  let inPlace ← Task.ask
    (.forAnswer "Overwrite the original files? (y/n): " suggested.overwrite)
  let project ← Task.resolve directory
  let outputDir ←
    if inPlace then pure none
    else do
      let directory ← Task.ask
        (.forText "Output directory: " (.text (suggested.output.getD (besideProject project).text)))
      some <$> Task.resolve directory
  return {
    projectDir := some project
    packages, className, methodName, recursive, inPlace, outputDir }

end ProbeWeave
