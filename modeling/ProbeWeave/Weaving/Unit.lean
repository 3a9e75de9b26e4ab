import ProbeWeave.Report.Build
import ProbeWeave.Weaving.Indent
import ProbeWeave.Weaving.Plan
import ProbeWeave.Weaving.Splice
import ProbeWeave.Weaving.Body
import ProbeWeave.Syntax.Printer.Statement
import ProbeWeave.Text.Character

/-!
# Weaving one module

The definitions that change are printed anew and put in the place of the old ones; the module that
declares the probes also gets the declarations and the import they need. All other lines stay as
they are.
-/

namespace ProbeWeave.Weaving

open Syntax Graph Probe Project

/-- Why the probes cannot be put into a module. -/
inductive UnitFault where
  /-- The new text of a definition cannot be written down. -/
  | unprintable (obstacle : Printer.Obstacle)
  | unscannable (fault : Indent.ScanFault)
  deriving Repr

/-- What weaving a module needs beyond its plan. -/
structure Setting where
  analysis : Analysis
  /-- The registry with all loop probes. -/
  registry : Registry
  generateReport : Bool
  reportVariable : String
  reportFile : Option String

/-- A module with its new text and what was changed. -/
structure WovenUnit where
  unit : SourceUnit
  source : String
  events : List Event

/-- The first line of a statement, its decorators included. -/
def firstLine (s : Stmt) : Nat :=
  s.decorators.foldl (fun n d => min n d.line) s.lines.first

/-- The blanks that the line of a statement begins with. -/
def indentationOf (lines : List String) (s : Stmt) : String :=
  Text.leadingBlank (lines.getD (s.lines.first - 1) "")

/-- What stands behind a text that the body of a scope begins with. -/
def behindText (body : List Stmt) : List Stmt :=
  match body with
  | s :: rest => if s.isText then rest else body
  | [] => []

/-- The first line of the first statement in a list that is not passed over, or the line behind
the module. -/
def lineBehind (body : List Stmt) (passed : Stmt → Bool) : Nat :=
  match (behindText body).find? fun s => !passed s with
  | some s => firstLine s
  | none =>
    match body.getLast? with
    | some s => s.lines.last + 1
    | none => 1

/-- Whether a statement is an import. -/
def isImport : Stmt → Bool
  | .imports .. | .importsFrom .. => true
  | _ => false

/-- Whether a statement is an import that has to come first. -/
def isFutureImport : Stmt → Bool
  | .importsFrom _ (some "__future__") _ _ => true
  | _ => false

/-- The kind of event that tells of a change. -/
def ChangeKind.eventKind : ChangeKind → EventKind
  | call => .call
  | returned => .returned
  | loop => .loop

/-- The event that tells of a change in a routine. -/
def Change.event (c : Change) (unit : SourceUnit) (r : Routine) : Event :=
  ⟨c.kind.eventKind, r.qualifiedName ++ " -> " ++ c.probe, some unit.path⟩

/-- A definition with another body. -/
def withBody : Stmt → List Stmt → Stmt
  | .functionDef lines isAsync name parameters _ decorators returns, body =>
    .functionDef lines isAsync name parameters body decorators returns
  | s, _ => s

/-- Puts statements at the end of a body, but in front of a `return` that ends it. -/
def putLast (body report : List Stmt) : List Stmt :=
  match body.getLast? with
  | some s => if s.isReturn then body.dropLast ++ report ++ [s] else body ++ report
  | none => report

/-- Puts a statement at the start of a body, but behind a text that it begins with. -/
def putFirst (body : List Stmt) (s : Stmt) : List Stmt :=
  match body with
  | first :: rest => if first.isText then first :: s :: rest else s :: body
  | [] => [s]

namespace Setting

/-- The site of statements in a module. -/
def site (setting : Setting) (unit : SourceUnit) : Site :=
  ⟨setting.registry.home, unit.name, homeAlias⟩

/-- Whether a routine is the one that gets the report. -/
def reports (setting : Setting) (r : Routine) : Bool :=
  setting.generateReport && r == setting.analysis.graph.routine

/-- The statements that give the report. -/
def reportStatements (setting : Setting) (r : Routine) : List Stmt :=
  reportBlock r.qualifiedName
    (Report.build setting.analysis.exclusions setting.registry setting.analysis.graph)
    setting.reportVariable setting.reportFile

/-- The new body of a routine and the changes in it. -/
def rebuildBody (setting : Setting) (unit : SourceUnit) (plan : RoutinePlan) :
    List Stmt × List Change :=
  let site := setting.site unit
  let (body, changes) := site.weaveBlock plan.body
  let body :=
    if setting.reports plan.definition.routine then
      putLast body (setting.reportStatements plan.definition.routine)
    else body
  (if site.needsHomeImport && !changes.isEmpty then putFirst body site.homeImport else body, changes)

/-- The events that tell of a rebuilt routine. -/
def routineEvents (setting : Setting) (unit : SourceUnit) (r : Routine) (changes : List Change) :
    List Event :=
  changes.map (·.event unit r) ++
    if setting.reports r then [⟨.report, r.qualifiedName, some unit.path⟩] else []

/-- The edit that puts a rebuilt definition in the place of the old one. -/
def definitionEdit (lines : List String) (old new : Stmt) : Except UnitFault LineEdit := do
  let text ← new.text?.mapError .unprintable
  let indented ← (indentCode text (indentationOf lines old)).mapError .unscannable
  return ⟨firstLine old, old.lines.last, indented⟩

/-- Rebuilds a routine: what happened, and the edit. -/
def rebuildRoutine (setting : Setting) (unit : SourceUnit) (lines : List String)
    (plan : RoutinePlan) : List Event × Except UnitFault LineEdit :=
  let (body, changes) := setting.rebuildBody unit plan
  let old := plan.definition.statement
  (setting.routineEvents unit plan.definition.routine changes,
    definitionEdit lines old (withBody old body))

/-- Rebuilds routines up to the first that cannot be. -/
def rebuildRoutines (setting : Setting) (unit : SourceUnit) (lines : List String) :
    List RoutinePlan → List Event × Except UnitFault (List LineEdit)
  | [] => ([], .ok [])
  | plan :: rest =>
    let (events, edit) := setting.rebuildRoutine unit lines plan
    match edit with
    | .error fault => (events, .error fault)
    | .ok edit =>
      let (more, edits) := setting.rebuildRoutines unit lines rest
      (events ++ more, edits.map (edit :: ·))

/-- The declarations of the probes, as lines. -/
def fieldLines (setting : Setting) : List String :=
  setting.registry.fieldNames.map fun name => (fieldDeclaration name).text

/-- The statement of a class body in front of which the probes are declared. -/
def fieldAnchor? (body : List Stmt) : Option Stmt :=
  match behindText body with
  | s :: _ => some s
  | [] => body.head?

/-- The edit that declares the probes at the top of the home. -/
def fieldEdit (setting : Setting) (unit : SourceUnit) (lines : List String) : LineEdit :=
  let fields := setting.fieldLines
  let classBody := unit.body.findSome? fun s =>
    match s with
    | .classDef _ name _ _ body _ =>
      if some name == setting.registry.home.owner then some body else none
    | _ => none
  match classBody.bind fieldAnchor? with
  | some anchor =>
    .insertAt (firstLine anchor) (fields.map (indentationOf lines anchor ++ ·) ++ [""])
  | none => .insertAt (lineBehind unit.body isImport) (fields ++ [""])

/-- The edit that imports the stopwatch. -/
def importEdit (unit : SourceUnit) : LineEdit :=
  .insertAt (lineBehind unit.body isFutureImport) [stopwatchImport.text]

/-- The routines of a module that are rebuilt. -/
def rebuilt (setting : Setting) (plan : UnitPlan) : List RoutinePlan :=
  plan.routines.filter fun r => r.isActive || setting.reports r.definition.routine

/-- The edits that weave a module, and what they do. -/
def unitEdits (setting : Setting) (plan : UnitPlan) : List Event × Except UnitFault (List LineEdit) :=
  let unit := plan.unit
  let lines := (Text.sourceLines unit.source).map Text.withoutBreak
  let (events, edits) := setting.rebuildRoutines unit lines (setting.rebuilt plan)
  match edits with
  | .error fault => (events, .error fault)
  | .ok edits =>
    let home := setting.registry.home
    if unit.name == home.module then
      (events ++ [⟨.fields, home.displayName, some unit.path⟩],
        .ok (importEdit unit :: edits ++ [setting.fieldEdit unit lines]))
    else (events, .ok edits)

/-- Weaves a module whose file exists: what happened, and the new text if it differs. -/
def weaveUnit (setting : Setting) (plan : UnitPlan) :
    List Event × Except UnitFault (Option WovenUnit) :=
  let unit := plan.unit
  let (events, edits) := setting.unitEdits plan
  match edits with
  | .error fault => (events, .error fault)
  | .ok edits =>
    let source := applyEdits unit.source edits
    (events,
      .ok (if edits.isEmpty || source == unit.source then none else some ⟨unit, source, events⟩))

end Setting

end ProbeWeave.Weaving
