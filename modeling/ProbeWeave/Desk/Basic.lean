import ProbeWeave.CommandLine.Mode
import ProbeWeave.Delivery
import ProbeWeave.Profile.Session
import ProbeWeave.Text.Table

/-!
# The desk

A task works at a desk: on the files and the store of profiles, with what the user will type, and
with what has been printed. A task that fails leaves the desk as it is by then: what was printed or
written before the failure stays.
-/

namespace ProbeWeave

open Files

/-- Why an answer was refused, and where in it the cursor is put. -/
structure Complaint where
  message : String
  position : Nat
  deriving DecidableEq, Repr

/-- A prompt that was shown, with the answer it got. -/
structure Prompt where
  text : String
  /-- What was suggested. -/
  default : Value
  answer : Value
  /-- Why the answer was refused, if it was. -/
  complaint : Option Complaint
  deriving BEq, Repr

/-- What a task works on. -/
structure Desk where
  session : Session
  /-- What the user will type at prompts; `none` takes what is suggested. -/
  answers : List (Option String)
  /-- The lines that the user will type elsewhere. -/
  input : List String
  /-- Everything printed so far. -/
  output : String
  /-- The prompts shown so far. -/
  prompts : List Prompt

/-- Why a task failed. -/
inductive TaskFault where
  | stop (stop : CommandLine.Stop)
  | store (fault : StoreFault)
  | record (fault : RecordFault)
  | analysis (fault : AnalysisFault)
  | instrumentation (fault : InstrumentationFault)
  | delivery (fault : DeliveryFault)
  | table (fault : Text.Table.Fault)
  | reading (fault : ReadFault)
  | measurement (fault : Number.WholeFault)
  /-- A prompt is shown and the user types nothing more. -/
  | noAnswers
  | endOfInput
  /-- Something else than a text was suggested and taken. -/
  | notText (kind : String)
  | noHome
  | noReport
  | reportMissing (path : Path)
  | emptyName
  | nameTaken (name : String)
  | noSuchProfile (name : String)
  deriving Repr

/-- What a fault is reported as. -/
def TaskFault.message : TaskFault → String
  | stop s => s.message
  | store fault => fault.message
  | record fault => fault.message
  | analysis fault => fault.message
  | instrumentation fault => fault.message
  | delivery fault => fault.message
  | table fault => fault.message
  | reading fault => fault.message
  | measurement fault => fault.message
  | noAnswers => "no more answers"
  | endOfInput => "EOF when reading a line"
  | notText kind => "'" ++ kind ++ "' object has no attribute 'strip'"
  | noHome => "Could not determine home directory."
  | noReport => "No report file given and none configured in the profile."
  | reportMissing path => "Report file not found: " ++ path.text
  | emptyName => "Profile name cannot be empty."
  | nameTaken name => "Profile '" ++ name ++ "' already exists."
  | noSuchProfile name => "Profile '" ++ name ++ "' does not exist."

/-- A task at a desk. -/
abbrev Task := ExceptT TaskFault (StateM Desk)

namespace Task

/-- The files and the directories that paths begin at. -/
def world : Task World :=
  return (← get).session.world

/-- Goes on with other files. -/
def setTree (tree : FileTree) : Task Unit :=
  modify fun desk =>
    { desk with session := { desk.session with world := desk.session.world.withTree tree } }

/-- The value of something that may have failed. -/
def check {ε α : Type} (fault : ε → TaskFault) (x : Except ε α) : Task α :=
  match x with
  | .ok v => pure v
  | .error e => throw (fault e)

/-- Works on the session. -/
def onSession {α : Type} (step : Session → Except StoreFault α × Session) : Task α := do
  let desk ← get
  let (result, session) := step desk.session
  set { desk with session }
  check .store result

/-- Loads the profile of a name, or the current one. -/
def load (name : Option String) : Task Record :=
  onSession (Session.load name)

/-- Saves settings under a name. -/
def save (r : Record) (name : String) : Task Unit :=
  onSession (Session.save r name)

/-- What the store holds. -/
def storeRoot : Task (Option Yaml.Node) :=
  onSession fun s => (s.root, s)

/-- Prints a text as it is. -/
def write (text : String) : Task Unit :=
  modify fun desk => { desk with output := desk.output ++ text }

/-- Prints a line. -/
def say (line : String) : Task Unit :=
  write (line ++ "\n")

/-- Prints a table. -/
def sayTable (table : Text.Table) : Task Unit := do
  say (← check .table table.text)

/-- Reads the next line that the user types. -/
def readLine : Task String := do
  let desk ← get
  match desk.input with
  | [] => throw .endOfInput
  | line :: rest => do
    set { desk with input := rest }
    return line

end Task

end ProbeWeave
