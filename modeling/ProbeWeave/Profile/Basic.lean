import ProbeWeave.Files.Path
import ProbeWeave.Graph.Model
import ProbeWeave.Text.Character

/-!
# Profiles

A profile says which project is instrumented, where it is entered and how. Lists are kept as one
text with commas, as a user writes them.
-/

namespace ProbeWeave

open Files

/-- All settings of a run. -/
structure Profile where
  projectDir : Option Path := none
  /-- Prefixes of the modules that are the project's own. -/
  packages : String := ""
  className : String := ""
  methodName : String := ""
  /-- The variable that collects the report. -/
  reportVariable : String := "timing_report"
  /-- The file that the report is appended to. -/
  reportFile : Option Path := none
  /-- Whether calls are followed beyond those of the entry routine. -/
  recursive : Bool := true
  inPlace : Bool := false
  outputDir : Option Path := none
  generateReport : Bool := true
  /-- Patterns of routines that are not timed. -/
  exclude : String := ", ".intercalate Graph.defaultExclusions
  /-- Whether calls on unknown receivers go to the only method of that name. -/
  ambiguousFallback : Bool := false
  /-- The number of modules that are woven at a time. -/
  jobs : Int := 1
  deriving DecidableEq, Inhabited, Repr

namespace Profile

/-- The profile in which nothing was set. -/
def blank : Profile := {}

/-- The prefixes of the modules that are the project's own. -/
def packageList (p : Profile) : List String :=
  Text.splitList p.packages

/-- The patterns of routines that are not timed. -/
def excludeList (p : Profile) : List String :=
  Text.splitList p.exclude

end Profile

end ProbeWeave
