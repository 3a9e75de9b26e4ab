import ProbeWeave.Desk.Basic
import ProbeWeave.Graph.Basic
import ProbeWeave.Text.Diff

/-!
# Surveying and instrumenting

Before a project is changed its call graph can be looked at, with the probe of each routine. When it
is instrumented the changed modules are written, or only shown as differences, and what was done is
counted. Events are printed as they happen; unless everything is asked for, only warnings are.
-/

namespace ProbeWeave

open Files

/-- What is to be done with a project. -/
structure ProjectRequest where
  /-- Settings that take the place of those of the profile. -/
  overrides : Record
  verbose : Bool
  /-- Whether changes are only shown. -/
  dryRun : Bool

/-- The request that fields make. -/
def ProjectRequest.ofFields (fields : Record) : ProjectRequest :=
  let isSet (key : String) : Bool := fields.get? key == some (.bool true)
  ⟨fields, isSet "verbose", isSet "dry_run"⟩

namespace Analysis

/-- The row of a probe: its routine, where that is defined, and in which file of the project. -/
def probeRow (a : Analysis) (p : Probe.RoutineProbe) : List String :=
  let file := ((a.fileOf? p.routine).map fun file => (file.relativeTo a.project.root).text).getD ""
  [p.routine.qualifiedName, p.routine.scopeName, file, p.name]

/-- The table of all probes. -/
def probeTable (a : Analysis) : Text.Table :=
  let rows := a.registry.probes.map a.probeRow
  ⟨toString rows.length ++ " ROUTINES", ["Routine", "Scope", "File", "Probe"], rows⟩

end Analysis

namespace Instrumentation

/-- The number of events of a kind. -/
def count (i : Instrumentation) (kind : EventKind) : Nat :=
  i.events.countP fun e => e.kind == kind

/-- The table of what was done. -/
def countTable (i : Instrumentation) (changed written : Nat) : Text.Table :=
  let rows : List (String × Nat) :=
    [("Routines", i.registry.probes.length),
      ("Loop probes", i.registry.loops.length),
      ("Wrapped calls", i.count .call),
      ("Wrapped returns", i.count .returned),
      ("Wrapped loops", i.count .loop),
      ("Modules changed", changed),
      ("Files written", written),
      ("Warnings", i.count .warning)]
  ⟨"INSTRUMENTATION", ["", "Count"], rows.map fun (name, n) => [name, toString n]⟩

end Instrumentation

/-- A module with its changes as differences. -/
def Weaving.WovenUnit.difference (u : Weaving.WovenUnit) : String :=
  Text.diff u.unit.source u.source u.unit.relative.text

namespace Task

/-- Prints events, or only the warnings among them. -/
def announce (verbose : Bool) (events : List Event) : Task Unit :=
  (events.filter fun e => verbose || e.kind == .warning).forM fun e => say e.text

/-- The profile that a request is for. -/
def profileFor (request : ProjectRequest) : Task Profile := do
  check .record (Profile.ofRecord Value.plainKinds ((← load none).override request.overrides))

/-- Analyses the project of a profile. -/
def analyse (verbose : Bool) (profile : Profile) : Task Analysis := do
  let (result, events) := Analysis.ofProfile (← world) profile
  announce verbose events
  check .analysis result

/-- Prints the call graph and the probes. -/
def showAnalysis (a : Analysis) : Task Unit := do
  say ""
  say (" Entry routine: " ++ a.entry.fullName)
  say (" Probes declared in: " ++ a.registry.home.displayName)
  say ""
  a.graph.outline.forM say
  say ""
  sayTable a.probeTable

/-- Shows what would be timed. -/
def survey (request : ProjectRequest) : Task Unit := do
  showAnalysis (← analyse request.verbose (← profileFor request))

/-- Writes changed modules, or shows how they change; gives the number of files written. -/
def deliver (request : ProjectRequest) (profile : Profile) (units : List Weaving.WovenUnit) :
    Task Nat := do
  if request.dryRun then
    units.forM fun unit => say unit.difference
    return 0
  else
    let delivery := Delivery.run (← world) units profile
    setTree delivery.tree
    announce request.verbose delivery.events
    return (← check .delivery delivery.written).length

/-- Instruments a project. -/
def inject (request : ProjectRequest) : Task Unit := do
  let profile ← profileFor request
  let analysis ← analyse request.verbose profile
  if request.verbose then showAnalysis analysis
  let run := Instrumentation.run analysis analysis.registry profile (← world).tree
  announce request.verbose run.events
  let units ← check .instrumentation run.units
  let written ← deliver request profile units
  sayTable (run.countTable units.length written)
  if written > 0 && !profile.inPlace then
    say ("Instrumented project written to " ++ ((profile.outputDir.map Path.text).getD ""))

end Task

end ProbeWeave
