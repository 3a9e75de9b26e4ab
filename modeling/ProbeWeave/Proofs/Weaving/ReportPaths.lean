import ProbeWeave.Proofs.Project.SingleModule
import ProbeWeave.Proofs.Report.Printed
import ProbeWeave.Proofs.Weaving.Applied
import ProbeWeave.Proofs.Weaving.PiecePaths

/-! # On which runs the report is given

The report stands in front of the `return` that ends a body, or else at its end. A path gets there unless
it returns earlier, and then all of it runs, once and behind every start and stop. So the report is given
on every run exactly if nothing returns but a `return` that ends the body.
-/

namespace ProbeWeave.Weaving

open Syntax ProbeWeave.Graph Probe Project Paths

/-- A body without the `return` that ends it. -/
def beforeReturn (b : List Stmt) : List Stmt :=
  match b.getLast? with
  | some s => if s.isReturn then b.dropLast else b
  | none => b

/-- Whether a report runs as a whole and once, behind starts and stops of probes. -/
def Reported (report : List Stmt) (es : List RunEvent) : Prop :=
  ∃ probes, (∀ e ∈ probes, e.isProbe = true) ∧ es = probes ++ report.map .ran

/-! ### The statements of a report -/

/-- Nothing in a report sends control elsewhere. -/
theorem exits_reportBlock {entry collector : String} {lines : List Report.Line} {file : Option String}
    {s : Stmt} (member : s ∈ reportBlock entry lines collector file) : Stmt.exits [s] = .quiet .fell := by
  have expression (e : Expr) : Stmt.exits [.expression .nowhere e] = .quiet .fell := by
    rw [Stmt.exits_singleton]
    rfl
  rw [Report.reportBlock_eq, List.mem_append, Report.collecting, List.mem_cons, List.mem_map] at member
  unfold Report.showing at member
  rw [List.mem_cons] at member
  rcases member with (rfl | ⟨line, -, rfl⟩) | rfl | appends
  · rw [Stmt.exits_singleton]
    rfl
  · exact expression _
  · exact expression _
  · cases file with
    | none => cases appends
    | some file =>
      dsimp only at appends
      split at appends
      · cases appends
      · rw [List.mem_singleton.mp appends, Stmt.exits_singleton]
        funext es x
        simp [reportAppend, Stmt.control, Stmt.blocks, choice, expression]

/-- The statements of a report run one after the other. -/
theorem paths_extras (report : List Stmt) {es : List RunEvent} {x : Exit} :
    Piece.blockPaths (report.map .extra) es x ↔ es = report.map .ran ∧ x = .fell := by
  induction report generalizing es with
  | nil =>
    rw [List.map_nil, Piece.blockPaths]
    rfl
  | cons s rest ih =>
    rw [List.map_cons, Piece.blockPaths, Piece.paths, event_seq, List.map_cons]
    simp only [ih]
    constructor
    · rintro ⟨as, ⟨rfl, rfl⟩, rfl⟩
      exact ⟨rfl, rfl⟩
    · rintro ⟨rfl, rfl⟩
      exact ⟨_, ⟨rfl, rfl⟩, rfl⟩

/-! ### Where the report stands -/

theorem markBlock_append (timing : Timing) (b rest : List Stmt) (m : Mapping) :
    (timing.markBlock (b ++ rest) m).1 =
      (timing.markBlock b m).1 ++ (timing.markBlock rest (timing.markBlock b m).2).1 := by
  induction b generalizing m with
  | nil => simp only [List.nil_append, Timing.markBlock]
  | cons s b ih => simp only [List.cons_append, Timing.markBlock, ih]

theorem ofBlock_append (b rest : List Marked) :
    Piece.ofBlock (b ++ rest) = Piece.ofBlock b ++ Piece.ofBlock rest := by
  induction b with
  | nil => rw [Piece.ofBlock, List.nil_append, List.nil_append]
  | cons m b ih => rw [List.cons_append, Piece.ofBlock, Piece.ofBlock, ih, List.append_assoc]

/-- What stands behind the report of a body: nothing, or the piece that returns for a `return` that ends
the body. -/
def Ending (site : Site) (b : List Stmt) (temporaries : List String) (rest : List Piece) (x : Exit) :
    Prop :=
  (rest = [] ∧ x = .fell ∧ beforeReturn b = b) ∨
    ∃ s p, rest = [p] ∧ x = .returned ∧ b = beforeReturn b ++ [s] ∧ s.isReturn = true ∧
      Timing.Returning site s temporaries p

theorem Ending.quiet {site : Site} {b : List Stmt} {temporaries : List String} {rest : List Piece}
    {x : Exit} (ending : Ending site b temporaries rest x) : Piece.blockPaths rest = .quiet x := by
  rcases ending with ⟨rfl, rfl, -⟩ | ⟨s, p, rfl, rfl, -, -, returning⟩
  · rw [Piece.blockPaths]
  · rw [Piece.blockPaths_singleton, returning.leaves]

/-- How the pieces of a body are split where its report is put: in front of the report is what mirrors the
body up to a `return` that ends it. -/
structure Split (site : Site) (b : List Stmt) (temporaries : List String)
    (ps front rest : List Piece) (x : Exit) : Prop where
  whole : ps = front ++ rest
  mirrors : Piece.Mirrors site front (beforeReturn b)
  ending : Ending site b temporaries rest x

/-- The report is put in front of a `return` that ends the body, or else at its end. -/
theorem exists_split (timing : Timing) (site : Site) (b : List Stmt) (m : Mapping)
    (report : List Piece) :
    ∃ front rest x, Split site b (Marked.blockTemporaries (timing.markBlock b m).1)
        (Piece.ofBlock (timing.markBlock b m).1) front rest x ∧
      Piece.putLast site (Piece.ofBlock (timing.markBlock b m).1) report = front ++ report ++ rest := by
  rcases List.eq_nil_or_concat' b with rfl | ⟨init, s, rfl⟩
  · refine ⟨[], [], .fell, ⟨?_, .nil site, .inl ⟨rfl, rfl, rfl⟩⟩, ?_⟩
    · rw [Timing.markBlock, Piece.ofBlock, List.append_nil]
    · rw [Timing.markBlock, Piece.ofBlock, Piece.putLast, List.getLast?_nil, List.nil_append,
        List.append_nil]
  · have last : beforeReturn (init ++ [s]) = if s.isReturn then init else init ++ [s] := by
      rw [beforeReturn, List.getLast?_concat, List.dropLast_concat]
    have marks : (timing.markBlock (init ++ [s]) m).1 = (timing.markBlock init m).1 ++
        [(timing.markStmt s (timing.markBlock init m).2).1] := by
      rw [markBlock_append]
      simp only [Timing.markBlock]
    have whole : Piece.ofBlock (timing.markBlock (init ++ [s]) m).1 =
        Piece.ofBlock (timing.markBlock init m).1 ++
          Piece.ofMarked (timing.markStmt s (timing.markBlock init m).2).1 := by
      rw [marks, ofBlock_append]
      simp only [Piece.ofBlock, List.append_nil]
    have mirrors := timing.mirrors_markBlock site init m
    cases returns : s.isReturn with
    | true =>
      obtain ⟨before, p, split, ahead, returning⟩ :=
        timing.exists_returning site returns (timing.markBlock init m).2
      rw [split, ← List.append_assoc] at whole
      rw [returns, if_pos rfl] at last
      refine ⟨_, [p], .returned, ⟨whole, ?_, .inr ⟨s, p, rfl, rfl, by rw [last], returns, ?_⟩⟩, ?_⟩
      · rw [last]
        have front := mirrors.append ahead
        rwa [List.append_nil] at front
      · refine returning.mono fun id member => ?_
        rw [marks, Marked.blockTemporaries, List.flatMap_append, List.flatMap_singleton]
        exact List.mem_append_right _ member
      · rw [whole, Piece.putLast, List.getLast?_concat, List.dropLast_concat]
        exact if_pos returning.rendered
    | false =>
      obtain ⟨before, p, split, rendered⟩ :=
        timing.exists_other site returns (timing.markBlock init m).2
      rw [returns, if_neg Bool.false_ne_true] at last
      refine ⟨_, [], .fell, ⟨(List.append_nil _).symm, ?_, .inl ⟨rfl, rfl, last⟩⟩, ?_⟩
      · rw [last]
        exact timing.mirrors_markBlock site _ m
      · rw [split, ← List.append_assoc] at whole
        rw [whole, Piece.putLast, List.getLast?_concat, List.append_nil]
        exact if_neg (by simp [rendered])

section Paths

variable {site : Site} {b report : List Stmt} {temporaries : List String}
  {ps front rest : List Piece} {y : Exit}

/-- A path leaves in front of the report, or it runs the report and leaves at the end. -/
theorem Split.path_iff (split : Split site b temporaries ps front rest y) {es : List RunEvent} {x : Exit} :
    Piece.blockPaths (front ++ report.map .extra ++ rest) es x ↔
      (Piece.blockPaths front es x ∧ x ≠ .fell) ∨
        ∃ as, Piece.blockPaths front as .fell ∧ es = as ++ report.map .ran ∧ x = y := by
  rw [Piece.blockPaths_append, Piece.blockPaths_append, split.ending.quiet, seq_assoc]
  constructor
  · rintro (early | ⟨as, _, run, ⟨extras, other⟩ | ⟨_, _, extras, ⟨rfl, rfl⟩, rfl⟩, rfl⟩)
    · exact .inl early
    · exact absurd ((paths_extras report).mp extras).2 other
    · obtain ⟨rfl, -⟩ := (paths_extras report).mp extras
      exact .inr ⟨as, run, by rw [List.append_nil], rfl⟩
  · rintro (early | ⟨as, run, rfl, rfl⟩)
    · exact .inl early
    · exact .inr ⟨as, _, run, .inr ⟨_, [], (paths_extras report).mpr ⟨rfl, rfl⟩, ⟨rfl, rfl⟩,
        (List.append_nil _).symm⟩, rfl⟩

/-- A path that does not give the report returns before it gets there. -/
theorem Split.reported_or (split : Split site b temporaries ps front rest y) {es : List RunEvent} {x : Exit}
    (path : Piece.blockPaths (front ++ report.map .extra ++ rest) es x) :
    Reported report es ∨
      x ≠ .fell ∧ (∀ e ∈ es, e.isProbe = true) ∧ ∃ ds, Stmt.exits (beforeReturn b) ds x := by
  rcases split.path_iff.mp path with ⟨early, elsewhere⟩ | ⟨as, run, rfl, -⟩
  · obtain ⟨ds, run, only⟩ := split.mirrors.runs.forth es x early
    exact .inr ⟨elsewhere, only, ds, run⟩
  · obtain ⟨_, -, only⟩ := split.mirrors.runs.forth as .fell run
    exact .inl ⟨as, only, rfl⟩

/-- The report is given on every path exactly if nothing returns before it. -/
theorem Split.reported_iff (split : Split site b temporaries ps front rest y) (some : report ≠ []) :
    (∀ es x, Piece.blockPaths (front ++ report.map .extra ++ rest) es x →
        x = .fell ∨ x = .returned → Reported report es) ↔
      ∀ ds, ¬Stmt.exits (beforeReturn b) ds .returned := by
  constructor
  · intro every ds returns
    obtain ⟨es, run, only⟩ := split.mirrors.runs.back ds .returned returns
    obtain ⟨probes, -, rfl⟩ := every es .returned
      (split.path_iff.mpr (.inl ⟨run, by decide⟩)) (.inr rfl)
    obtain ⟨s, member⟩ := List.exists_mem_of_ne_nil _ some
    have probe := only (.ran s) (List.mem_append_right _ (List.mem_map_of_mem member))
    cases probe
  · intro never es x path leaves
    rcases split.reported_or path with reported | ⟨elsewhere, -, ds, run⟩
    · exact reported
    · rcases leaves with rfl | rfl
      · exact absurd rfl elsewhere
      · exact absurd run (never ds)

/-- Control leaves a body with a report as it leaves the body. -/
theorem Split.exits_eq (split : Split site b temporaries ps front rest y)
    (falls : ∀ s ∈ report, Stmt.exits [s] = .quiet .fell) :
    Stmt.exits (Piece.renderBlock site (front ++ report.map .extra ++ rest)) =
      Stmt.exits (Piece.renderBlock site ps) := by
  have silent : Stmt.exits report = .quiet .fell := by
    induction report with
    | nil => exact Stmt.exits_nil
    | cons s rest ih =>
      obtain ⟨first, others⟩ := List.forall_mem_cons.mp falls
      rw [Stmt.exits_cons, first, quiet_seq, ih others]
  have extras : Piece.renderBlock site (report.map .extra) = report := by
    rw [Piece.renderBlock_eq, Piece.map_render_extra]
  rw [split.whole]
  simp only [Piece.renderBlock_append, Stmt.exits_append, extras, silent, seq_quiet]

/-- The report takes no path away and adds none. -/
theorem Split.leaves_iff (split : Split site b temporaries ps front rest y) (x : Exit) :
    (∃ es, Piece.blockPaths (front ++ report.map .extra ++ rest) es x) ↔
      ∃ es, Piece.blockPaths ps es x := by
  have plain (es : List RunEvent) : Piece.blockPaths ps es x ↔
      (Piece.blockPaths front es x ∧ x ≠ .fell) ∨ Piece.blockPaths front es .fell ∧ x = y := by
    have without : Piece.blockPaths (front ++ ([] : List Stmt).map .extra ++ rest) es x ↔ _ :=
      split.path_iff
    rw [List.map_nil, List.append_nil, ← split.whole] at without
    rw [without]
    simp
  simp only [plain, split.path_iff]
  constructor
  · rintro ⟨es, early | ⟨as, run, -, ends⟩⟩
    · exact ⟨es, .inl early⟩
    · exact ⟨as, .inr ⟨run, ends⟩⟩
  · rintro ⟨es, early | ⟨run, ends⟩⟩
    · exact ⟨es, .inl early⟩
    · exact ⟨_, .inr ⟨es, run, rfl, ends⟩⟩

end Paths

/-! ### The entry of a program -/

section Entry

variable {a : Analysis} {registry : Registry} {profile : Profile} {setting : Setting}
  {unit : SourceUnit} {r : RoutinePlan}

/-- In the home, a routine that gets the report gets nothing else. -/
theorem pieces_of_reports (home : unit.name = setting.registry.home.module)
    (reports : setting.reports r.definition.routine = true) :
    setting.pieces unit r = Piece.putLast (setting.site unit) (Piece.ofBlock r.body)
      ((setting.reportStatements r.definition.routine).map .extra) := by
  have atHome : (setting.site unit).needsHomeImport = false := by
    simp [Site.needsHomeImport, Setting.site, home]
  rw [Setting.pieces, atHome, Bool.false_and, if_neg Bool.false_ne_true, if_pos reports]

/-- What the paths through the new body of a routine have to do with its report. -/
structure ReportPaths (setting : Setting) (unit : SourceUnit) (r : RoutinePlan) : Prop where
  /-- The statements of the new body are its pieces. -/
  rendered : Piece.renderBlock (setting.site unit) (setting.pieces unit r) =
    (setting.rebuildBody unit r).1
  /-- Control leaves the new body as it leaves the old one. -/
  exits : Stmt.exits (setting.rebuildBody unit r).1 = Stmt.exits r.definition.body
  /-- The paths through the pieces leave as those through the statements do. -/
  followed : ∀ x, (∃ es, Piece.blockPaths (setting.pieces unit r) es x) ↔
    ∃ ds, Stmt.exits (setting.rebuildBody unit r).1 ds x
  /-- A path gives the whole report, once and last, or it gets nowhere near it. -/
  once : ∀ es x, Piece.blockPaths (setting.pieces unit r) es x →
    Reported (setting.reportStatements r.definition.routine) es ∨
      x ≠ .fell ∧ (∀ e ∈ es, e.isProbe = true) ∧ ∃ ds, Stmt.exits (beforeReturn r.definition.body) ds x
  /-- Every path that ends or returns gives it exactly if nothing returns before it. -/
  every : (∀ es x, Piece.blockPaths (setting.pieces unit r) es x → x = .fell ∨ x = .returned →
      Reported (setting.reportStatements r.definition.routine) es) ↔
    ∀ ds, ¬Stmt.exits (beforeReturn r.definition.body) ds .returned

theorem reportPaths_of_marked (home : unit.name = setting.registry.home.module)
    (reports : setting.reports r.definition.routine = true) {timing : Timing} {m : Mapping}
    (marked : r.body = (timing.markBlock r.definition.body m).1) : ReportPaths setting unit r := by
  have some : setting.reportStatements r.definition.routine ≠ [] := List.cons_ne_nil _ _
  obtain ⟨front, rest, y, split, put⟩ := exists_split timing (setting.site unit) r.definition.body m
    ((setting.reportStatements r.definition.routine).map .extra)
  rw [← marked, ← pieces_of_reports home reports] at put
  have mirrors := timing.mirrors_markBlock (setting.site unit) r.definition.body m
  have rendered := setting.render_pieces unit r
  have falls : ∀ s ∈ setting.reportStatements r.definition.routine, Stmt.exits [s] = .quiet .fell :=
    fun s => exits_reportBlock
  have exits : Stmt.exits (setting.rebuildBody unit r).1 = Stmt.exits r.definition.body := by
    rw [← rendered, put, split.exits_eq falls, mirrors.exits]
  refine ⟨rendered, exits, fun x => ?_, fun es x path => ?_, ?_⟩
  · rw [put, split.leaves_iff, exits]
    constructor
    · rintro ⟨es, run⟩
      obtain ⟨ds, left, -⟩ := mirrors.runs.forth es x run
      exact ⟨ds, left⟩
    · rintro ⟨ds, left⟩
      obtain ⟨es, run, -⟩ := mirrors.runs.back ds x left
      exact ⟨es, run⟩
  · rw [put] at path
    exact split.reported_or path
  · rw [put]
    exact split.reported_iff some

/-- The entry is planned in its module. -/
theorem exists_entered (of : a.Of profile) (registry : Registry) :
    ∃ plan ∈ plansOf a registry, ∃ r ∈ plan.routines, r.definition.routine = a.entry := by
  obtain ⟨plan, planned, m, -, unit, named, -⟩ := exists_homePlan of registry
  exact ⟨plan, planned, exists_entry_of_home of planned (unit ▸ named)⟩

end Entry

end ProbeWeave.Weaving

namespace ProbeWeave.Instrumentation

open Weaving Probe ProbeWeave.Graph

variable {a : Analysis} {registry : Registry} {profile : Profile}

theorem reports_entry (of : a.Of profile) (generates : profile.generateReport = true)
    (registry : Registry) {r : RoutinePlan} (entry : r.definition.routine = a.entry) :
    (settingOf a registry profile).reports r.definition.routine = true := by
  rw [Setting.reports, entry, ← ProgramModel.callGraph_root of.graph]
  exact Bool.and_eq_true_iff.mpr ⟨generates, beq_self_eq_true _⟩

theorem reportPaths_of_entry (of : a.Of profile) (reached : Reaches a registry)
    (generates : profile.generateReport = true) {plan : UnitPlan} (planned : plan ∈ plansOf a registry)
    {r : RoutinePlan} (member : r ∈ plan.routines) (entry : r.definition.routine = a.entry) :
    ReportPaths (settingOf a registry profile) plan.unit r := by
  have reports := reports_entry of generates registry entry
  obtain ⟨timing, m, marked⟩ := marked_of_mem_mapRoutines (mapped_of_mem_routines planned member).1
  exact reportPaths_of_marked (home_of_reports of reached planned member reports) reports marked

/-- With a report, the entry of a program is rebuilt. -/
theorem exists_rebuilt_entry (of : a.Of profile) (generates : profile.generateReport = true)
    (registry : Registry) :
    ∃ plan ∈ plansOf a registry, ∃ r ∈ (settingOf a registry profile).rebuilt plan,
      r.definition.routine = a.entry := by
  obtain ⟨plan, planned, r, member, entry⟩ := exists_entered of registry
  refine ⟨plan, planned, r, List.mem_filter.mpr ⟨member, ?_⟩, entry⟩
  rw [reports_entry of generates registry entry, Bool.or_true]

/-- With a report, the entry of a program is rebuilt, and the paths through its new body give the report
as a whole, once and behind every start and stop, unless they return before it. So the report is given on
every run exactly if no `return` leaves the entry but one that ends its body. -/
theorem report_paths {w : Files.World} (analysed : (Analysis.ofProfile w profile).1 = .ok a)
    (reached : Reaches a registry) (generates : profile.generateReport = true) :
    (∃ plan ∈ plansOf a registry, ∃ r ∈ (settingOf a registry profile).rebuilt plan,
      r.definition.routine = a.entry) ∧
    ∀ plan ∈ plansOf a registry, ∀ r ∈ plan.routines, r.definition.routine = a.entry →
      ReportPaths (settingOf a registry profile) plan.unit r := by
  have of := Analysis.of_ofProfile analysed
  exact ⟨exists_rebuilt_entry of generates registry, fun plan planned r member =>
    reportPaths_of_entry of reached generates planned member⟩

end ProbeWeave.Instrumentation

/-! An entry that may return early. -/

namespace ProbeWeave.Weaving.EarlyReturn

open Syntax ProbeWeave.Graph Probe Project Files SingleModule Paths

def source : String :=
  "def f():\n    return 1\n\n\ndef run(x):\n    if x:\n        return 0\n    f()\n"

def giving : Stmt :=
  .functionDef ⟨1, 2⟩ false "f" (.mk [] [] none [] none)
    [.returned ⟨2, 2⟩ (some (.constant (.int 1)))] [] none

/-- The body returns from a branch, or it calls a function and ends. -/
def body : List Stmt :=
  [.branch ⟨6, 7⟩ (.name "x" .load) [.returned ⟨7, 7⟩ (some (.constant (.int 0)))] [],
    .expression ⟨8, 8⟩ (.call ⟨8, 4⟩ (.name "f" .load) [] [])]

def running : Stmt :=
  .functionDef ⟨5, 8⟩ false "run" (.mk [] [.mk "x" none none] none [] none) body [] none

def f : Definition := ⟨⟨"m", 0, none, "f", 1⟩, giving⟩
def run : Definition := ⟨⟨"m", 1, none, "run", 5⟩, running⟩

def module : Module :=
  ⟨unit source [giving, running], ⟨[("f", f), ("run", run)]⟩, .empty, .empty, [f, run]⟩

def project : Project.Project := SingleModule.project module false

set_option maxRecDepth 10000 in
theorem load_project : (load (SingleModule.tree source) ["p"] [] false).1 = .ok project := by
  have parsed : parseModule source = .ok [giving, running] := by rfl
  exact load_tree parsed (by cbv) false

def world : World := ⟨SingleModule.tree source, .absolute [], .absolute []⟩

def profile : Profile :=
  { projectDir := some (.absolute ["p"]), methodName := "run", exclude := "" }

def analysis : Analysis :=
  ⟨project, run.routine, [], .node run.routine [.node f.routine []],
    ⟨⟨"m", none⟩, [⟨"probe1_f", f.routine⟩], []⟩⟩

theorem ofProfile_world : (Analysis.ofProfile world profile).1 = .ok analysis := by
  have packages : profile.packageList = [] := by cbv
  have exclusions : profile.excludeList = [] := by cbv
  have entered : project.entry? (some "") "run" = some run.routine := by cbv
  have graph : project.callGraph [] true run.routine = .ok analysis.graph := by cbv
  refine SingleModule.ofProfile_world rfl (by decide) ?_ entered exclusions.symm ?_ (by cbv)
  · rw [packages]
    exact load_project
  · rw [exclusions]
    exact graph

theorem caller?_run : (analysis.project.caller? run.routine).map (·.definition) = some run := by cbv

theorem report_paths_earlyReturn : (Analysis.ofProfile world profile).1 = .ok analysis ∧
    ∃ plan ∈ plansOf analysis analysis.registry, ∃ r ∈ plan.routines, r.definition = run ∧
      ReportPaths (Instrumentation.settingOf analysis analysis.registry profile) plan.unit r := by
  obtain ⟨⟨plan, planned, r, rebuilt, entry⟩, each⟩ :=
    Instrumentation.report_paths ofProfile_world .own rfl
  have member := List.mem_of_mem_filter rebuilt
  have own := definition_eq_of_routine (Analysis.of_ofProfile ofProfile_world) planned member entry
    caller?_run
  exact ⟨ofProfile_world, plan, planned, r, member, own, each plan planned r member entry⟩

/-- A run that returns from the branch ends without a report. -/
theorem unreported_earlyReturn : (Analysis.ofProfile world profile).1 = .ok analysis ∧
    profile.generateReport = true ∧
    ∃ plan ∈ plansOf analysis analysis.registry, ∃ r ∈ plan.routines, r.definition = run ∧
      ∃ es, Piece.blockPaths ((Instrumentation.settingOf analysis analysis.registry profile).pieces
          plan.unit r) es .returned ∧
        ¬Reported ((Instrumentation.settingOf analysis analysis.registry profile).reportStatements
          run.routine) es := by
  have of := Analysis.of_ofProfile ofProfile_world
  obtain ⟨plan, planned, r, member, entry⟩ := exists_entered of analysis.registry
  have own := definition_eq_of_routine of planned member entry caller?_run
  have paths := Instrumentation.reportPaths_of_entry of .own rfl planned member entry
  have early : Stmt.exits (beforeReturn r.definition.body) [] .returned := by
    rw [own, show beforeReturn run.body = body from rfl, body, Stmt.exits_cons, Stmt.exits_singleton]
    refine .inl ⟨⟨_, List.mem_cons_self, ?_⟩, by decide⟩
    rw [Stmt.exits_of_isReturn rfl]
    exact ⟨rfl, rfl⟩
  refine ⟨ofProfile_world, rfl, plan, planned, r, member, own, ?_⟩
  by_contra reported
  refine paths.every.mp (fun es x path leaves => ?_) [] early
  rcases paths.once es x path with given | ⟨elsewhere, -, -⟩
  · exact given
  · obtain rfl : x = .returned := leaves.resolve_left elsewhere
    rw [own]
    by_contra none
    exact reported ⟨es, path, none⟩

end ProbeWeave.Weaving.EarlyReturn
