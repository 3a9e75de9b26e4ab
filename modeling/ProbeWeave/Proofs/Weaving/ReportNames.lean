import ProbeWeave.Proofs.Weaving.FreshNames
import ProbeWeave.Proofs.Weaving.ReportPaths

/-! # The names that a report binds

A report binds the variable in which it is collected and, if it is appended to a file, the handle of the
file. Neither is compared with the names of the routine that gets it. So what the routine reads behind
the report, the value of a `return` that ends it above all, is what it would read without the report
exactly if the routine mentions neither of them.
-/

namespace ProbeWeave.Syntax.Stmt

theorem blockUses_cons (id : String) (s : Stmt) (b : List Stmt) :
    blockUses id (s :: b) = s.uses id ++ blockUses id b :=
  rfl

theorem blockUses_append (id : String) (b c : List Stmt) :
    blockUses id (b ++ c) = blockUses id b ++ blockUses id c :=
  List.flatMap_append

theorem uses_expression (id : String) (lines : Lines) (e : Expr) :
    (expression lines e).uses id = e.uses id := by
  rw [uses_eq]
  simp [children]

end ProbeWeave.Syntax.Stmt

namespace ProbeWeave.Weaving

open Syntax ProbeWeave.Graph Probe Project

/-! ### What is bound -/

/-- The names that a report binds. -/
def reportNames (collector : String) (file : Option String) : List String :=
  match file with
  | some path => if path.isEmpty then [collector] else [collector, reportHandle]
  | none => [collector]

theorem mem_reportNames {collector id : String} {file : Option String} :
    id ∈ reportNames collector file ↔
      id = collector ∨ (∃ path, file = some path ∧ path ≠ "") ∧ id = reportHandle := by
  unfold reportNames
  split
  · split
    · simp_all
    · simp_all
  · simp

section Uses

variable {id collector : String}

theorem uses_textLiteral (id s : String) : (textLiteral s).uses id = [] := by
  rw [textLiteral, Expr.uses_eq_children (by simp)]
  rfl

/-- A name with points is only read. -/
theorem store_notMem_dottedExpr (id dotted : String) : .store ∉ (dottedExpr dotted).uses id := by
  obtain ⟨first, rest, same⟩ := memberChain_eq ((dotted.toList.splitOn '.').map String.ofList)
  rw [dottedExpr, same, uses_foldl, loaded, Expr.uses_name]
  split <;> simp

theorem store_notMem_joinedLines : .store ∉ (joinedLines collector).uses id := by
  rw [joinedLines, methodCall, callOf, loaded]
  simp only [Expr.uses_call, Expr.uses_member, uses_textLiteral, List.flatMap_cons, Expr.uses_name]
  split <;> simp

theorem store_notMem_measuredLine (id : String) (line : Report.Line) :
    .store ∉ (measuredLine line).uses id := by
  have reading (member : String) :
      .store ∉ (Expr.formatted (.member (dottedExpr line.probe) member) none none).uses id := by
    rw [Expr.uses_eq_children (by simp)]
    simpa [Expr.children] using store_notMem_dottedExpr id line.probe
  rw [measuredLine, Expr.uses_eq_children (by simp)]
  simp [Expr.children, uses_textLiteral, reading]

/-- Appending a report to a file binds the handle of the file. -/
theorem store_mem_reportAppend {file : String} :
    .store ∈ (reportAppend collector file).uses id ↔ id = reportHandle := by
  have opens : .store ∉ (callOf (loaded "open") [textLiteral file, textLiteral "a"]
      [.mk (some "encoding") (textLiteral "utf-8")]).uses id := by
    rw [callOf, loaded]
    simp only [Expr.uses_call, Expr.uses_name]
    split <;> simp [uses_textLiteral, Keyword.value]
  have writes : .store ∉ (methodCall (loaded reportHandle) "write"
      [.binary (joinedLines collector) .add (textLiteral "\n")]).uses id := by
    have sum : .store ∉ (Expr.binary (joinedLines collector) .add (textLiteral "\n")).uses id := by
      rw [Expr.uses_eq_children (by simp)]
      simpa [Expr.children, uses_textLiteral] using store_notMem_joinedLines
    rw [methodCall, callOf, loaded]
    simp only [Expr.uses_call, Expr.uses_member, Expr.uses_name]
    split <;> simp [sum]
  rw [reportAppend, Stmt.uses_eq]
  simp only [Stmt.children, List.map_cons, List.map_nil, List.cons_append, List.nil_append,
    List.flatMap_cons, List.flatMap_nil, List.append_nil, Stmt.uses_withItem, Option.toList_some,
    Stmt.uses_stmt, Stmt.uses_expression, List.mem_append, opens, writes, Expr.uses_name, false_or,
    or_false]
  rw [eq_comm (a := id)]
  split <;> simp_all

/-- A report binds its variable and, with a file, the handle of the file, and nothing else. -/
theorem store_mem_reportBlock {entry : String} {lines : List Report.Line} {file : Option String} :
    .store ∈ Stmt.blockUses id (reportBlock entry lines collector file) ↔
      id ∈ reportNames collector file := by
  have header : .store ∈ (bindName collector (.list [textLiteral (Report.headerText entry)])).uses id ↔
      id = collector := by
    rw [uses_bindName, Expr.uses_eq_children (by simp)]
    simp only [Expr.children, List.map_cons, List.map_nil, List.flatMap_cons, List.flatMap_nil,
      Expr.uses_expr, uses_textLiteral, List.append_nil]
    rw [eq_comm (a := id)]
    split <;> simp_all
  have row (line : Report.Line) : .store ∉ (Stmt.expression .nowhere
      (methodCall (loaded collector) "append" [measuredLine line])).uses id := by
    rw [Stmt.uses_expression, methodCall, callOf, loaded]
    simp only [Expr.uses_call, Expr.uses_member, Expr.uses_name]
    split <;> simp [store_notMem_measuredLine]
  have prints : .store ∉ (Stmt.expression .nowhere
      (callOf (loaded "print") [joinedLines collector] [])).uses id := by
    rw [Stmt.uses_expression, callOf, loaded]
    simp only [Expr.uses_call, Expr.uses_name]
    split <;> simp [store_notMem_joinedLines]
  have shown : .store ∈ Stmt.blockUses id (Report.showing collector file) ↔
      (∃ path, file = some path ∧ path ≠ "") ∧ id = reportHandle := by
    unfold Report.showing
    rw [Stmt.blockUses_cons, List.mem_append, or_iff_right prints]
    cases file with
    | none => simp [Stmt.blockUses]
    | some path =>
      by_cases empty : path = ""
      · simp [empty, Stmt.blockUses]
      · simp [empty, Stmt.blockUses, store_mem_reportAppend]
  rw [mem_reportNames, Report.reportBlock_eq, Stmt.blockUses_append, List.mem_append, shown,
    Report.collecting, Stmt.blockUses_cons, List.mem_append, header]
  simp [Stmt.blockUses, row]

end Uses

/-! ### What is evaluated -/

/-- What expressions evaluate to, given the values of names. Of these, only some are looked at. -/
structure Evaluation (V : Type) (looked : String → Prop) where
  value : (String → V) → Expr → V
  /-- What a `with` binds, given the value of its context. -/
  entered : V → V
  only : ∀ {names others : String → V}, (∀ id, looked id → names id = others id) →
    ∀ e, value names e = value others e

namespace Evaluation

variable {V : Type} {looked : String → Prop} (eval : Evaluation V looked) {names after : String → V}

/-- The values of names behind a statement of a report. -/
def step? (names : String → V) : Stmt → Option (String → V)
  | .assign _ [.name id .store] e => some (Function.update names id (eval.value names e))
  | .expression _ _ => some names
  | .withBlock _ false [⟨context, some (.name id .store)⟩] [.expression _ _] =>
    some (Function.update names id (eval.entered (eval.value names context)))
  | _ => none

/-- The values of names behind statements of a report. -/
def run? (names : String → V) (block : List Stmt) : Option (String → V) :=
  block.foldlM eval.step? names

variable {entry collector : String} {lines : List Report.Line} {file : Option String}

theorem run?_append (b c : List Stmt) :
    eval.run? names (b ++ c) = (eval.run? names b).bind fun between => eval.run? between c :=
  List.foldlM_append ..

/-- Collecting a report binds the variable to a new list. -/
theorem run?_collecting : eval.run? names (Report.collecting entry lines collector) =
    some (Function.update names collector
      (eval.value names (.list [textLiteral (Report.headerText entry)]))) := by
  have rows (names : String → V) : eval.run? names (lines.map fun line =>
      .expression .nowhere (methodCall (loaded collector) "append" [measuredLine line])) =
        some names := by
    induction lines with
    | nil => rfl
    | cons line rest ih => exact ih
  exact rows _

/-- Showing a report binds the handle of its file, if there is one. -/
theorem exists_run?_showing (collector : String) (file : Option String) (names : String → V) :
    ∃ after, eval.run? names (Report.showing collector file) = some after ∧
      ((∃ path, file = some path ∧ path ≠ "") ∧
          (∃ v, after = Function.update names reportHandle (eval.entered v)) ∨
        (¬∃ path, file = some path ∧ path ≠ "") ∧ after = names) := by
  unfold Report.showing
  cases file with
  | none => exact ⟨names, rfl, .inr ⟨by simp, rfl⟩⟩
  | some path =>
    by_cases empty : path = ""
    · subst empty
      exact ⟨names, rfl, .inr ⟨by simp, rfl⟩⟩
    · dsimp only
      rw [if_neg (by simpa using empty)]
      exact ⟨_, rfl, .inl ⟨⟨path, rfl, empty⟩, _, rfl⟩⟩

/-- A report changes the values of the names that it binds and of no others. -/
theorem exists_run?_reportBlock (entry : String) (lines : List Report.Line) (collector : String)
    (file : Option String) (names : String → V) :
    ∃ after, eval.run? names (reportBlock entry lines collector file) = some after ∧
      (∀ id ∉ reportNames collector file, after id = names id) ∧
      ∀ id ∈ reportNames collector file,
        after id = eval.value names (.list [textLiteral (Report.headerText entry)]) ∨
          ∃ v, after id = eval.entered v := by
  obtain ⟨after, shows, ends⟩ := eval.exists_run?_showing collector file
    (Function.update names collector (eval.value names (.list [textLiteral (Report.headerText entry)])))
  refine ⟨after, ?_, fun id other => ?_, fun id bound => ?_⟩
  · rw [Report.reportBlock_eq, run?_append, run?_collecting, Option.bind_some, shows]
  · rw [mem_reportNames, not_or] at other
    rcases ends with ⟨there, v, rfl⟩ | ⟨-, rfl⟩
    · rw [Function.update_of_ne fun handle => other.2 ⟨there, handle⟩,
        Function.update_of_ne other.1]
    · exact Function.update_of_ne other.1 _ _
  · rcases ends with ⟨-, v, rfl⟩ | ⟨absent, rfl⟩
    · by_cases handle : id = reportHandle
      · exact .inr ⟨v, by rw [handle, Function.update_self]⟩
      · obtain rfl := (mem_reportNames.mp bound).resolve_right fun there => handle there.2
        exact .inl (by rw [Function.update_of_ne handle, Function.update_self])
    · obtain rfl := (mem_reportNames.mp bound).resolve_right fun there => absent there.1
      exact .inl (Function.update_self ..)

/-- An evaluation that only looks at one name, and whose other values are all the same. -/
def ofName {id : String} (within : looked id) : Evaluation Bool looked where
  value names e :=
    match e with
    | .name id' .load => if id' = id then names id else true
    | _ => true
  entered _ := true
  only := by
    intro names others same e
    rw [same id within]

/-- A name that a report binds has another value behind the report than in front of it. -/
theorem exists_changed {id : String} (within : looked id) (entry : String) (lines : List Report.Line)
    {collector : String} {file : Option String} (bound : id ∈ reportNames collector file) :
    ∃ after, (ofName within).run? (fun _ => false) (reportBlock entry lines collector file) =
        some after ∧
      (ofName within).value after (.name id .load) ≠
        (ofName within).value (fun _ => false) (.name id .load) := by
  obtain ⟨after, run, -, changed⟩ :=
    (ofName within).exists_run?_reportBlock entry lines collector file fun _ => false
  have value : after id = true := by
    rcases changed id bound with list | ⟨v, handle⟩
    · exact list
    · exact handle
  exact ⟨after, run, by simp [ofName, value]⟩

/-- All that is evaluated from certain names is what it was in front of a report exactly if the report
binds none of them. -/
theorem kept_iff {entry : String} {lines : List Report.Line} {collector : String}
    {file : Option String} :
    (∀ (V : Type) (eval : Evaluation V looked) (names after : String → V),
        eval.run? names (reportBlock entry lines collector file) = some after →
        ∀ e, eval.value after e = eval.value names e) ↔
      ∀ id ∈ reportNames collector file, ¬looked id := by
  constructor
  · intro kept id bound within
    obtain ⟨after, run, changed⟩ := exists_changed within entry lines bound
    exact changed (kept Bool _ _ after run _)
  · intro apart V eval names after run e
    obtain ⟨_, again, unchanged, -⟩ := eval.exists_run?_reportBlock entry lines collector file names
    obtain rfl := Option.some.inj (run.symm.trans again)
    refine eval.only (fun id within => unchanged id fun bound => apart id bound within) e

end Evaluation

/-! ### The entry of a program -/

section Entry

variable {setting : Setting} {unit : SourceUnit} {r : RoutinePlan}

/-- A name in the new code of a routine: it is mentioned, or it is a temporary. -/
def RoutinePlan.Has (r : RoutinePlan) (id : String) : Prop :=
  (∃ form, Mentions r.definition form id) ∨ id ∈ r.temporaries

/-- What the report of a routine binds, and who reads that. -/
structure ReportNames (setting : Setting) (unit : SourceUnit) (r : RoutinePlan) : Prop where
  /-- The report binds its variable and, with a file, the handle of the file. -/
  binds : ∀ id, .store ∈ Stmt.blockUses id (setting.reportStatements r.definition.routine) ↔
    id ∈ reportNames setting.reportVariable setting.reportFile
  /-- The report runs, and other names keep their values. -/
  frame : ∀ (V : Type) (looked : String → Prop) (eval : Evaluation V looked) (names : String → V),
    ∃ after, eval.run? names (setting.reportStatements r.definition.routine) = some after ∧
      ∀ id ∉ reportNames setting.reportVariable setting.reportFile, after id = names id
  /-- The report stands last, or only the `return` that ends the body stands behind it, which reads
  temporaries besides what it reads anyway. -/
  ends : (beforeReturn r.definition.body = r.definition.body ∧ ∃ front,
      (setting.rebuildBody unit r).1 =
        front ++ setting.reportStatements r.definition.routine) ∨
    ∃ s front lines value, s.isReturn = true ∧
      r.definition.body = beforeReturn r.definition.body ++ [s] ∧
      (setting.rebuildBody unit r).1 =
        front ++ setting.reportStatements r.definition.routine ++ [.returned lines value] ∧
      ∀ id, (Stmt.returned lines value).uses id ≠ [] → s.uses id ≠ [] ∨ id ∈ r.temporaries
  /-- All that is evaluated from names of the routine is what it was in front of the report exactly if
  the routine mentions no name that the report binds, and has no temporary of that name. -/
  kept : (∀ (V : Type) (eval : Evaluation V r.Has) (names after : String → V),
      eval.run? names (setting.reportStatements r.definition.routine) = some after →
      ∀ e, eval.value after e = eval.value names e) ↔
    (∀ id ∈ reportNames setting.reportVariable setting.reportFile,
      ∀ form, ¬Mentions r.definition form id) ∧ setting.reportVariable ∉ r.temporaries

/-- The handle of a file is no temporary. -/
theorem reportHandle_notMem_temporaries {a : Analysis} {registry : Registry} {routines : List Routine}
    (mapped : r ∈ (mapRoutines a routines registry).1) : reportHandle ∉ r.temporaries := by
  obtain ⟨caller, before, rfl⟩ := exists_mapRoutine mapped
  obtain ⟨after, issued⟩ := issued_mapRoutine a caller before
  obtain ⟨ns, named, -⟩ := issued.numbers
  rw [named]
  intro member
  obtain ⟨n, -, same⟩ := List.mem_map.mp member
  have characters := congrArg String.toList same
  rw [Supply.nameAt, String.toList_append] at characters
  simp [Supply.fresh, temporaryStem, reportHandle] at characters

theorem reportNames_of_marked (home : unit.name = setting.registry.home.module)
    (reports : setting.reports r.definition.routine = true) {timing : Timing} {m : Mapping}
    (marked : r.body = (timing.markBlock r.definition.body m).1)
    (handle : reportHandle ∉ r.temporaries) : ReportNames setting unit r := by
  refine ⟨fun id => store_mem_reportBlock, fun V looked eval names => ?_, ?_, ?_⟩
  · obtain ⟨after, run, frame, -⟩ := eval.exists_run?_reportBlock _ _ _ _ names
    exact ⟨after, run, frame⟩
  · obtain ⟨front, rest, y, split, put⟩ := exists_split timing (setting.site unit) r.definition.body m
      ((setting.reportStatements r.definition.routine).map .extra)
    rw [← marked, ← pieces_of_reports home reports] at put
    have rendered := setting.render_pieces unit r
    rw [put, Piece.renderBlock_append, Piece.renderBlock_append,
      Piece.renderBlock_eq _ (List.map ..), Piece.map_render_extra] at rendered
    rcases split.ending with ⟨rfl, -, last⟩ | ⟨s, p, rfl, -, last, returns, returning⟩
    · rw [Piece.renderBlock, List.append_nil] at rendered
      exact .inl ⟨last, _, rendered.symm⟩
    · obtain ⟨lines, value, same⟩ := Stmt.exists_of_isReturn returning.rendered
      rw [Piece.renderBlock, Piece.renderBlock, same] at rendered
      exact .inr ⟨s, _, lines, value, returns, last, rendered.symm, fun id read => by
        rw [RoutinePlan.temporaries, marked]
        exact returning.reads id (same ▸ read)⟩
  · rw [Setting.reportStatements, Evaluation.kept_iff]
    constructor
    · intro apart
      exact ⟨fun id bound form mentioned => apart id bound (.inl ⟨form, mentioned⟩),
        fun temporary => apart _ (mem_reportNames.mpr (.inl rfl)) (.inr temporary)⟩
    · rintro ⟨apart, free⟩ id bound (⟨form, mentioned⟩ | temporary)
      · exact apart id bound form mentioned
      · rcases mem_reportNames.mp bound with rfl | ⟨-, rfl⟩
        · exact free temporary
        · exact handle temporary

end Entry

end ProbeWeave.Weaving

namespace ProbeWeave.Instrumentation

open Weaving Probe ProbeWeave.Graph

variable {a : Analysis} {registry : Registry} {profile : Profile}

theorem reportNames_of_entry (of : a.Of profile) (reached : Reaches a registry)
    (generates : profile.generateReport = true) {plan : UnitPlan} (planned : plan ∈ plansOf a registry)
    {r : RoutinePlan} (member : r ∈ plan.routines) (entry : r.definition.routine = a.entry) :
    ReportNames (settingOf a registry profile) plan.unit r := by
  have mapped := (mapped_of_mem_routines planned member).1
  have reports := reports_entry of generates registry entry
  obtain ⟨timing, m, marked⟩ := marked_of_mem_mapRoutines mapped
  exact reportNames_of_marked (home_of_reports of reached planned member reports) reports marked
    (reportHandle_notMem_temporaries mapped)

/-- With a report, the entry of a program is rebuilt. The report in it binds its variable and the handle of
its file, whatever the entry calls its own names, and all that the entry evaluates behind it is what it
would be without exactly if none of its names is one of these. -/
theorem report_names {w : Files.World} (analysed : (Analysis.ofProfile w profile).1 = .ok a)
    (reached : Reaches a registry) (generates : profile.generateReport = true) :
    (∃ plan ∈ plansOf a registry, ∃ r ∈ (settingOf a registry profile).rebuilt plan,
      r.definition.routine = a.entry) ∧
    ∀ plan ∈ plansOf a registry, ∀ r ∈ plan.routines, r.definition.routine = a.entry →
      ReportNames (settingOf a registry profile) plan.unit r := by
  have of := Analysis.of_ofProfile analysed
  exact ⟨exists_rebuilt_entry of generates registry, fun plan planned r member =>
    reportNames_of_entry of reached generates planned member⟩

end ProbeWeave.Instrumentation

/-! An entry with a variable that is called as the variable of reports. -/

namespace ProbeWeave.Weaving.SharedName

open Syntax ProbeWeave.Graph Probe Project Files SingleModule

def source : String :=
  "def f():\n    return 1\n\n\ndef run():\n    timing_report = f()\n    return timing_report\n"

def giving : Stmt :=
  .functionDef ⟨1, 2⟩ false "f" (.mk [] [] none [] none)
    [.returned ⟨2, 2⟩ (some (.constant (.int 1)))] [] none

def returning : Stmt := .returned ⟨7, 7⟩ (some (.name "timing_report" .load))

def keeping : Stmt :=
  .assign ⟨6, 6⟩ [.name "timing_report" .store] (.call ⟨6, 20⟩ (.name "f" .load) [] [])

def running : Stmt :=
  .functionDef ⟨5, 7⟩ false "run" (.mk [] [] none [] none) [keeping, returning] [] none

def f : Definition := ⟨⟨"m", 0, none, "f", 1⟩, giving⟩
def run : Definition := ⟨⟨"m", 1, none, "run", 5⟩, running⟩

def module : Module :=
  ⟨unit source [giving, running], ⟨[("f", f), ("run", run)]⟩, .empty, .empty, [f, run]⟩

def project : Project.Project := SingleModule.project module false

set_option maxRecDepth 10000 in
theorem load_project : (load (SingleModule.tree source) ["p"] [] false).1 = .ok project := by
  have parsed : parseModule source = .ok [giving, running] := by rfl
  exact load_tree parsed (by cbv) false

def profile : Profile :=
  { projectDir := some (.absolute ["p"]), methodName := "run", exclude := "" }

def analysis : Analysis :=
  ⟨project, run.routine, [], .node run.routine [.node f.routine []],
    ⟨⟨"m", none⟩, [⟨"probe1_f", f.routine⟩], []⟩⟩

theorem ofProfile_source : (Analysis.ofProfile (SingleModule.world source) profile).1 = .ok analysis := by
  have packages : profile.packageList = [] := by cbv
  have exclusions : profile.excludeList = [] := by cbv
  have entered : project.entry? (some "") "run" = some run.routine := by cbv
  have graph : project.callGraph [] true run.routine = .ok analysis.graph := by cbv
  refine SingleModule.ofProfile_world rfl (by decide) ?_ entered exclusions.symm ?_ (by cbv)
  · rw [packages]
    exact load_project
  · rw [exclusions]
    exact graph

def setting : Setting := Instrumentation.settingOf analysis analysis.registry profile

theorem caller?_run : (analysis.project.caller? run.routine).map (·.definition) = some run := by cbv

theorem report_names_sharedName :
    (Analysis.ofProfile (SingleModule.world source) profile).1 = .ok analysis ∧
    ∃ plan ∈ plansOf analysis analysis.registry, ∃ r ∈ plan.routines, r.definition = run ∧
      ReportNames setting plan.unit r := by
  obtain ⟨⟨plan, planned, r, rebuilt, entry⟩, each⟩ :=
    Instrumentation.report_names ofProfile_source .own rfl
  have member := List.mem_of_mem_filter rebuilt
  have own := definition_eq_of_routine (Analysis.of_ofProfile ofProfile_source) planned member entry
    caller?_run
  exact ⟨ofProfile_source, plan, planned, r, member, own, each plan planned r member entry⟩

theorem mentions_run : Mentions run .variable "timing_report" := by
  refine ⟨.stmt returning, ?_, .expr (.name "timing_report" .load), ?_, List.mem_cons_self⟩
  · exact List.mem_cons_of_mem _ (List.mem_cons_of_mem _ List.mem_cons_self)
  · rw [Node.preorder_eq]
    refine List.mem_cons_of_mem _ (List.mem_flatMap.mpr
      ⟨.expr (.name "timing_report" .load), List.mem_cons_self, ?_⟩)
    rw [Node.preorder_eq]
    exact List.mem_cons_self

def runPlan : RoutinePlan :=
  ⟨run, [.mk keeping ⟨some ⟨.bound, "probe1_f"⟩, [], keeping.slot?⟩ [],
    .mk returning ⟨none, [], returning.slot?⟩ []]⟩

def fPlan : RoutinePlan :=
  ⟨f, [.mk (.returned ⟨2, 2⟩ (some (.constant (.int 1)))) ⟨none, [], some (.constant (.int 1))⟩ []]⟩

def plan : UnitPlan := ⟨module.unit, [runPlan, fPlan], .applying⟩

theorem mapGraph_analysis : mapGraph analysis analysis.registry =
    ([⟨module.unit, [runPlan, fPlan], .mapping⟩], analysis.registry) := by
  cbv

theorem plansOf_analysis : plansOf analysis analysis.registry = [plan] := by
  rw [plansOf, mapGraph_analysis]
  rfl

theorem setting_eq : setting = ⟨analysis, analysis.registry, true, profile.reportVariable, none⟩ := by
  rw [setting, Instrumentation.settingOf, mapGraph_analysis]
  rfl

theorem rebuildBody_run : (setting.rebuildBody module.unit runPlan).1 =
    [(setting.site module.unit).start "probe1_f", keeping, (setting.site module.unit).stop "probe1_f"] ++
      setting.reportStatements run.routine ++ [returning] := by
  rw [setting_eq]
  rfl

/-- The entry returns its variable behind a report that is collected in the same variable, and the value
is another one then. -/
theorem overwritten_sharedName :
    (Analysis.ofProfile (SingleModule.world source) profile).1 = .ok analysis ∧
    profile.generateReport = true ∧ Mentions run .variable "timing_report" ∧
    .store ∈ Stmt.blockUses "timing_report" (setting.reportStatements run.routine) ∧
    ∃ plan ∈ plansOf analysis analysis.registry, ∃ r ∈ plan.routines, r.definition = run ∧
      (∃ front, (setting.rebuildBody plan.unit r).1 =
        front ++ setting.reportStatements run.routine ++ [returning]) ∧
      ∃ (eval : Evaluation Bool r.Has) (names after : String → Bool),
        eval.run? names (setting.reportStatements run.routine) = some after ∧
        eval.value after (.name "timing_report" .load) ≠
          eval.value names (.name "timing_report" .load) := by
  have bound : "timing_report" ∈ reportNames setting.reportVariable setting.reportFile :=
    mem_reportNames.mpr (.inl rfl)
  have within : runPlan.Has "timing_report" := .inl ⟨.variable, mentions_run⟩
  obtain ⟨after, ran, changed⟩ := Evaluation.exists_changed within _ _ bound
  have planned : plan ∈ plansOf analysis analysis.registry := plansOf_analysis ▸ List.mem_cons_self
  exact ⟨ofProfile_source, rfl, mentions_run, store_mem_reportBlock.mpr bound, plan, planned, runPlan,
    List.mem_cons_self, rfl, ⟨_, rebuildBody_run⟩, _, _, after, ran, changed⟩

end ProbeWeave.Weaving.SharedName
