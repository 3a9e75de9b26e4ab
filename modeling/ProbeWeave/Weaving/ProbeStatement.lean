import ProbeWeave.Syntax.Tree
import ProbeWeave.Text.Quoted
import ProbeWeave.Probe.Registry
import ProbeWeave.Report.Line

/-!
# Statements that serve the probes

The statements that instrumented modules get: the declaration of a probe, starting and stopping
it, binding a temporary, the imports these need, and the block that prints the report. They are
built as trees and printed together with the code around them.
-/

namespace ProbeWeave.Weaving

open Syntax Probe

/-- The module that instrumented programs import the stopwatch from. -/
def stopwatchModule : String := "timetrack_cli.stopwatch"

/-- The class of the stopwatch. -/
def stopwatchClass : String := "Stopwatch"

/-- The name under which other modules import the module of the probes. -/
def homeAlias : String := "_timetrack_home"

/-- The name of the open report file. -/
def reportHandle : String := "_timetrack_report_file"

/-- Where statements are written: the home of the probes, the module, and the name of the home's
module there. -/
structure Site where
  home : Home
  module : String
  homeName : String
  deriving DecidableEq, Inhabited

/-- A text as an expression. -/
def textLiteral (s : String) : Expr :=
  .constant (.text (Text.points s) false)

/-- A name that is read. -/
def loaded (id : String) : Expr :=
  .name id .load

/-- The expression for names joined by points; no names give the empty name. -/
def memberChain (parts : List String) : Expr :=
  match parts with
  | [] => loaded ""
  | first :: rest => rest.foldl .member (loaded first)

/-- The expression for a text of names joined by points. -/
def dottedExpr (dotted : String) : Expr :=
  memberChain ((dotted.toList.splitOn '.').map String.ofList)

/-- A call that stands nowhere in a text. -/
def callOf (callee : Expr) (arguments : List Expr) (keywords : List Keyword) : Expr :=
  .call .nowhere callee arguments keywords

/-- A call of a member. -/
def methodCall (target : Expr) (method : String) (arguments : List Expr) : Expr :=
  callOf (.member target method) arguments []

/-- `name = value` -/
def bindName (name : String) (value : Expr) : Stmt :=
  .assign .nowhere [.name name .store] value

/-- `return name` -/
def returnName (name : String) : Stmt :=
  .returned .nowhere (some (loaded name))

/-- `name = Stopwatch()` -/
def fieldDeclaration (name : String) : Stmt :=
  bindName name (callOf (loaded stopwatchClass) [] [])

/-- The import of the stopwatch. -/
def stopwatchImport : Stmt :=
  .importsFrom .nowhere (some stopwatchModule) [⟨stopwatchClass, none⟩] 0

namespace Site

/-- Whether the probes are declared in another module. -/
def needsHomeImport (site : Site) : Bool :=
  site.module != site.home.module

/-- The names, with points between, that lead to a probe. -/
def probeRef (site : Site) (probe : String) : String :=
  ".".intercalate (site.home.reference site.module site.homeName ++ [probe])

/-- `probe.start()` -/
def start (site : Site) (probe : String) : Stmt :=
  .expression .nowhere (methodCall (dottedExpr (site.probeRef probe)) "start" [])

/-- `probe.stop()` -/
def stop (site : Site) (probe : String) : Stmt :=
  .expression .nowhere (methodCall (dottedExpr (site.probeRef probe)) "stop" [])

/-- `import home as name` -/
def homeImport (site : Site) : Stmt :=
  .imports .nowhere [⟨site.home.module, some site.homeName⟩]

end Site

/-- The line of a report as a formatted text that reads the probe. -/
def measuredLine (line : Report.Line) : Expr :=
  let reading (member : String) : Expr :=
    .formatted (.member (dottedExpr line.probe) member) none none
  .joined [textLiteral line.lead, reading "elapsed_ms", textLiteral " ms - ", reading "elapsed"]

/-- The lines of the report joined by line breaks. -/
def joinedLines (collector : String) : Expr :=
  methodCall (textLiteral "\n") "join" [loaded collector]

/-- The statements that append the report to a file. -/
def reportAppend (collector : String) (file : String) : Stmt :=
  let opened := callOf (loaded "open") [textLiteral file, textLiteral "a"]
    [.mk (some "encoding") (textLiteral "utf-8")]
  let written := methodCall (loaded reportHandle) "write"
    [.binary (joinedLines collector) .add (textLiteral "\n")]
  .withBlock .nowhere false [⟨opened, some (.name reportHandle .store)⟩]
    [.expression .nowhere written]

/--
The statements that collect a report in a variable, print it and, if a file is named, append it
to that file.
-/
def reportBlock (entry : String) (lines : List Report.Line) (collector : String)
    (file : Option String) : List Stmt :=
  bindName collector (.list [textLiteral (Report.headerText entry)]) ::
    lines.map (fun line =>
      .expression .nowhere (methodCall (loaded collector) "append" [measuredLine line])) ++
    .expression .nowhere (callOf (loaded "print") [joinedLines collector] []) ::
    match file with
    | some file => if file.isEmpty then [] else [reportAppend collector file]
    | none => []

end ProbeWeave.Weaving
