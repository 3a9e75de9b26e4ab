import ProbeWeave.Graph.Model
import ProbeWeave.Profile.Basic
import ProbeWeave.Project.Entry
import ProbeWeave.Project.Load
import ProbeWeave.Project.Origin

/-!
# Analysing a project

Before anything is changed the project is read, the entry routine is found, the call graph is built
and every routine in it gets a probe. A call is kept if its routine can be told, is the project's
own and is not left out.
-/

namespace ProbeWeave

open Syntax Graph Probe Project Files

/-- What is known before anything is changed. -/
structure Analysis where
  project : Project.Project
  entry : Routine
  exclusions : List String
  graph : CallTree
  registry : Registry

/-- Why there is nothing to analyse. -/
inductive AnalysisFault where
  | noProject
  | noMethod
  | open (fault : OpenFault)
  | noEntry (name : String) (root : Path)
  | project (fault : Project.Fault)
  deriving DecidableEq, Repr

namespace AnalysisFault

/-- What a fault is reported as. -/
def message : AnalysisFault → String
  | noProject =>
    "No project directory configured. Run 'timetrack-cli profile --init' or pass --project-dir."
  | noMethod => "No entry method configured."
  | .open fault => fault.message
  | noEntry name root => "Entry routine '" ++ name ++ "' not found in " ++ root.text ++ "."
  | project fault => fault.message

end AnalysisFault

namespace Project.Project

/-- The routine that a call runs, if the call is kept. -/
def keptTarget? (p : Project) (exclusions : List String) (caller : Caller) (call : Call) :
    Except Project.Fault (Option Routine) := do
  return (← caller.target? call).filter (p.model.keeps exclusions)

/-- The routines that a routine calls, one for each call that is kept. -/
def callees (p : Project) (exclusions : List String) (r : Routine) :
    Except Project.Fault (List Routine) :=
  p.model.callees exclusions r

/-- The call graph of a routine. -/
def callGraph (p : Project) (exclusions : List String) (recursive : Bool) (entry : Routine) :
    Except Project.Fault CallTree :=
  p.model.callGraph exclusions recursive entry

end Project.Project

namespace Analysis

/-- The entry routine as messages show it. -/
def wantedEntry (profile : Profile) : String :=
  if profile.className.isEmpty then profile.methodName
  else profile.className ++ "." ++ profile.methodName

/-- Analyses a project that was read. -/
def ofProject (project : Project.Project) (profile : Profile) : Except AnalysisFault Analysis :=
  match project.entry? (some profile.className) profile.methodName with
  | none => .error (.noEntry (wantedEntry profile) project.root)
  | some entry => do
    let exclusions := profile.excludeList
    let graph ← (project.callGraph exclusions profile.recursive entry).mapError .project
    return ⟨project, entry, exclusions, graph, Registry.ofGraph graph (homeOf entry)⟩

/-- Analyses the project that a profile names; also gives the warnings. -/
def ofProfile (w : World) (profile : Profile) : Except AnalysisFault Analysis × List Event :=
  match profile.projectDir with
  | none => (.error .noProject, [])
  | some directory =>
    if profile.methodName.isEmpty then (.error .noMethod, [])
    else
      let (project, events) :=
        openAt w directory.text profile.packageList profile.ambiguousFallback
      match project with
      | .error fault => (.error (.open fault), events)
      | .ok project => (ofProject project profile, events)

/-- The file of a routine. -/
def fileOf? (a : Analysis) (r : Routine) : Option Path :=
  (a.project.modules.get? r.module).map (·.unit.path)

end Analysis

end ProbeWeave
