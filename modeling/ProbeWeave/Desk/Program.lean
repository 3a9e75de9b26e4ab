import ProbeWeave.Desk.Keeping
import ProbeWeave.Desk.Survey
import ProbeWeave.Desk.Timings

/-!
# The program

A run of the program loads the current profile, reads the command line and does what each mode on it
asks for, in order. The first failure ends the run.
-/

namespace ProbeWeave

open CommandLine

namespace Task

/-- Does what a mode with its fields asks for. -/
def runMode : Mode × Record → Task Unit
  | (.profile, fields) => keepProfiles (.ofFields fields)
  | (.analyse, fields) => survey (.ofFields fields)
  | (.inject, fields) => inject (.ofFields fields)
  | (.report, fields) => showTimings (.ofFields fields)

/-- Runs the program with the words of a command line. -/
def program (args : List String) : Task Unit := do
  let current ← load none
  match readInvocation ((current.get? "project_dir").getD .null) args with
  | .ok invocation => invocation.modes.forM runMode
  | .error stop => do
    match stop with
    | .help text => write text
    | _ => pure ()
    throw (.stop stop)

end Task

/-- A desk at which nothing was done. -/
def Desk.begin (session : Session) (answers : List (Option String)) (input : List String) : Desk :=
  ⟨session, answers, input, "", []⟩

/-- Runs the program at a desk: how it ended, and the desk afterwards. -/
def Desk.run (desk : Desk) (args : List String) : Except TaskFault Unit × Desk :=
  (Task.program args).run.run desk

end ProbeWeave
