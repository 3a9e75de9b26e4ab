import ProbeWeave.Files.Path

/-!
# Events

What happens to the modules of a project is told by events: probes that were put in, files that
were written, and whatever was left out with a warning.
-/

namespace ProbeWeave

/-- What an event tells of. -/
inductive EventKind where
  | call
  | loop
  | returned
  | fields
  | report
  | file
  | warning
  deriving DecidableEq, Inhabited, Repr

/-- How a kind is written. -/
def EventKind.text : EventKind → String
  | call => "call"
  | loop => "loop"
  | returned => "return"
  | fields => "fields"
  | report => "report"
  | file => "file"
  | warning => "warning"

/-- Something that happened, to what, and in which file. -/
structure Event where
  kind : EventKind
  target : String
  file : Option Files.Path
  deriving DecidableEq, Inhabited, Repr

/-- An event as one line. -/
def Event.text (e : Event) : String :=
  "[" ++ e.kind.text ++ "] " ++ e.target ++
    match e.file with
    | some file => " (" ++ file.text ++ ")"
    | none => ""

end ProbeWeave
