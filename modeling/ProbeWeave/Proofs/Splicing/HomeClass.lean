import ProbeWeave.Proofs.Project.SingleModule
import ProbeWeave.Proofs.Splicing.Placed
import ProbeWeave.Proofs.Syntax.ClassBlock
import ProbeWeave.Proofs.Weaving.References

/-! # In which class the probes are declared

If the entry is a method, the class that declares the probes is looked up in the module by its name, and
the first class of that name is taken. So the probes are declared in the class that holds the entry
exactly if no class in front of it has its name.
-/

namespace ProbeWeave.Weaving

open Syntax ProbeWeave.Graph Probe Project

/-- Whether a statement is a class of a name. -/
def isClass (name : String) : Stmt → Bool
  | .classDef _ id .. => id == name
  | _ => false

/-- Whether the probes are declared in a class, given its lines and its body: below the line that the
class begins on, in front of a statement of its own that stands behind nothing but a text, and as deep as
that statement. -/
def DeclaredIn (setting : Setting) (unit : SourceUnit) (lines : Lines) (inner : List Stmt) : Prop :=
  let text := (Text.sourceLines unit.source).map Text.withoutBreak
  ∃ above anchor below,
    setting.fieldEdit unit text = .insertAt (firstLine anchor)
      (declarations (indentationOf text anchor) setting.registry.fieldNames ++ [""]) ∧
    Between inner (fun _ => false) (firstLine anchor) above (anchor :: below) ∧
    lines.first < firstLine anchor ∧ firstLine anchor ≤ lines.last

/-- Where the probes are declared, given a method and the name of its class. -/
def HomeClass (setting : Setting) (unit : SourceUnit) (method : Stmt) (name : String) : Prop :=
  ∃ early lines bases keywords inner decorators late,
    unit.body = early ++ .classDef lines name bases keywords inner decorators :: late ∧
    method ∈ inner ∧ (∀ s ∈ early ++ late, Apart s method) ∧
    (DeclaredIn setting unit lines inner ↔ ∀ s ∈ early, isClass name s = false)

section Home

variable {setting : Setting} {unit : SourceUnit} {early late inner : List Stmt} {lines : Lines}
  {name : String} {bases : List Expr} {keywords : List Keyword} {decorators : List Decorator}
  {last : Nat}

/-- The probes are declared in the first class of the name. -/
theorem fieldEdit_of_class
    (split : unit.body = early ++ .classDef lines name bases keywords inner decorators :: late)
    (first : ∀ s ∈ early, isClass name s = false) (owner : setting.registry.home.owner = some name)
    (text : List String) :
    setting.fieldEdit unit text = match Setting.fieldAnchor? inner with
      | some anchor => .insertAt (firstLine anchor)
          (declarations (indentationOf text anchor) setting.registry.fieldNames ++ [""])
      | none => .insertAt (lineBehind unit.body isImport) (setting.fieldLines ++ [""]) := by
  unfold Setting.fieldEdit
  dsimp only
  rw [split, List.findSome?_append, List.findSome?_eq_none_iff.mpr, Option.none_or,
    List.findSome?_cons]
  · cases chosen : Setting.fieldAnchor? inner <;>
      simp only [owner, beq_self_eq_true, if_true, Option.bind_some, chosen, map_fieldLines]
  · intro s member
    have other := first s member
    cases s <;> try rfl
    rw [isClass, beq_eq_false_iff_ne] at other
    simpa [owner] using other

theorem exists_fieldAnchor? {method : Stmt} (member : method ∈ inner) :
    ∃ anchor, Setting.fieldAnchor? inner = some anchor := by
  unfold Setting.fieldAnchor?
  split
  · exact ⟨_, rfl⟩
  · obtain ⟨s, rest, rfl⟩ := List.exists_cons_of_ne_nil (List.ne_nil_of_mem member)
    exact ⟨s, rfl⟩

/-- The first class of the name declares the probes if it holds a method. -/
theorem declaredIn_of_first (nested : ∀ s ∈ unit.body, Nested s)
    (indented : ∀ s ∈ unit.body, Indented s)
    (split : unit.body = early ++ .classDef lines name bases keywords inner decorators :: late)
    (first : ∀ s ∈ early, isClass name s = false) (owner : setting.registry.home.owner = some name)
    {method : Stmt} (member : method ∈ inner) (scope : method.opensScope = true) :
    DeclaredIn setting unit lines inner := by
  have inBody : .classDef lines name bases keywords inner decorators ∈ unit.body :=
    split ▸ List.mem_append_right _ List.mem_cons_self
  have lie : Lie lines.first lines.last inner := nested _ inBody
  obtain ⟨anchor, found⟩ := exists_fieldAnchor? member
  have inClass := mem_of_fieldAnchor? found
  obtain ⟨above, below, between⟩ := between_fieldAnchor lie found
  have inside := lie.inside anchor inClass
  refine ⟨above, anchor, below, ?_, between, ?_, Nat.le_trans inside.2.1 inside.2.2⟩
  · rw [fieldEdit_of_class split first owner, found]
  · exact indented _ inBody ⟨method, member, scope⟩ anchor inClass

/-- With a class of the name in front of a class, the probes are declared above the latter. -/
theorem fieldEdit_le_of_earlier (lie : Lie 1 last unit.body) (nested : ∀ s ∈ unit.body, Nested s)
    (split : unit.body = early ++ .classDef lines name bases keywords inner decorators :: late)
    (owner : setting.registry.home.owner = some name) {s : Stmt} (member : s ∈ early)
    (named : isClass name s = true) (text : List String) :
    (setting.fieldEdit unit text).first ≤ lines.first := by
  have head : firstLine (.classDef lines name bases keywords inner decorators) ≤ lines.first :=
    firstLine_le _
  cases found : early.find? (isClass name) with
  | none => exact absurd named (List.find?_eq_none.mp found s member)
  | some c =>
    obtain ⟨own, front, between, rfl, before⟩ := List.find?_eq_some_iff_append.mp found
    cases c with
    | classDef lines' id bases' keywords' inner' decorators' =>
      obtain rfl : id = name := beq_iff_eq.mp own
      have ordered := lie.ordered
      rw [split] at ordered
      have precedes := (List.pairwise_append.mp ordered).2.2 _
        (List.mem_append_right _ List.mem_cons_self) _ List.mem_cons_self
      have apart := precedes.2 (.inl rfl)
      have inBody : .classDef lines' id bases' keywords' inner' decorators' ∈ unit.body :=
        split ▸ List.mem_append_left _ (List.mem_append_right _ List.mem_cons_self)
      have within : Lie lines'.first lines'.last inner' := nested _ inBody
      have foremost : unit.body = front ++ .classDef lines' id bases' keywords' inner' decorators' ::
          (between ++ .classDef lines id bases keywords inner decorators :: late) := by
        rw [split, List.append_assoc, List.cons_append]
      rw [fieldEdit_of_class foremost (fun t early => by simpa using before t early) owner]
      split
      · rename_i anchor chosen
        have inside := within.inside anchor (mem_of_fieldAnchor? chosen)
        simp only [LineEdit.insertAt]
        simp only [Stmt.lines] at apart
        omega
      · have behind : .classDef lines id bases keywords inner decorators ∈ behindText unit.body :=
          (mem_behindText_or_isText (split ▸ List.mem_append_right _ List.mem_cons_self)).resolve_right
            (by simp [Stmt.isText])
        have start : lineBehind unit.body isImport ≤ _ := lineBehind_le_firstLine lie behind rfl
        simp only [LineEdit.insertAt]
        omega
    | _ => cases own

end Home

section Entry

variable {a : Analysis} {registry : Registry} {profile : Profile} {setting : Setting}
  {plan : UnitPlan} {name : String}

/-- A planned method stands in a class, which declares the probes of its home exactly if it is the first
class of its name. -/
theorem homeClass_of_planned (of : a.Of profile) (planned : plan ∈ plansOf a registry)
    {r : RoutinePlan} (member : r ∈ plan.routines) (method : r.definition.routine.owner = some name)
    (owner : setting.registry.home.owner = some name) :
    HomeClass setting plan.unit r.definition.statement name := by
  obtain ⟨m, inPlan⟩ := planned_of_mem of planned
  have sound := of.known.sound_of_mem inPlan.inProject
  obtain ⟨lie, nested⟩ := lie_of_parseModule sound.parsed
  have indented := indented_of_parseModule sound.parsed
  have held := List.mem_of_getElem? (getElem?_indexed sound inPlan member)
  rw [← inPlan.unit] at lie nested indented held
  obtain ⟨s, inBody, held⟩ := mem_indexed.mp held
  obtain ⟨-, scope, begun, -, ended⟩ := inside_of_mem lie nested inBody held
  rw [indexed, List.flatMap_singleton, method] at held
  cases s with
  | classDef lines id bases keywords inner decorators =>
    obtain ⟨d, inClass, same⟩ := List.mem_map.mp held
    obtain ⟨own, rfl⟩ := Prod.mk.inj same
    obtain rfl := Option.some.inj own
    obtain ⟨inClass, -⟩ := List.mem_filter.mp inClass
    obtain ⟨early, late, split⟩ := List.append_of_mem inBody
    have ordered := lie.ordered
    rw [split] at ordered
    obtain ⟨-, behind, across⟩ := List.pairwise_append.mp ordered
    refine ⟨early, lines, bases, keywords, inner, decorators, late, split, inClass, fun s beside => ?_,
      fun declared s earlier => ?_, fun first => ?_⟩
    · rcases List.mem_append.mp beside with earlier | later
      · have apart := (across s earlier _ List.mem_cons_self).2 (.inr rfl)
        exact .inl (Nat.lt_of_lt_of_le apart begun)
      · have apart := ((List.pairwise_cons.mp behind).1 s later).2 (.inl rfl)
        exact .inr (Nat.lt_of_le_of_lt ended apart)
    · obtain ⟨above, anchor, below, edit, -, strict, -⟩ := declared
      by_contra named
      have above := fieldEdit_le_of_earlier lie nested split owner earlier (by simpa using named)
        ((Text.sourceLines plan.unit.source).map Text.withoutBreak)
      rw [edit] at above
      simp only [LineEdit.insertAt] at above
      omega
    · exact declaredIn_of_first nested indented split first owner inClass scope
  | functionDef => simp at held
  | _ => cases held

end Entry

end ProbeWeave.Weaving

namespace ProbeWeave.Instrumentation

open Weaving Syntax Probe

/-- If the entry is a method, the home declares the probes in the class that holds the entry exactly if no
class in front of it has its name. -/
theorem fields_in_class {w : Files.World} {profile : Profile} {a : Analysis} {registry : Registry}
    {name : String} (analysed : (Analysis.ofProfile w profile).1 = .ok a)
    (reached : Reaches a registry) (method : a.entry.owner = some name) :
    (∃ plan ∈ plansOf a registry, plan.unit.name = a.entry.module) ∧
    (∀ plan ∈ plansOf a registry, plan.unit.name = a.entry.module →
      ∃ r ∈ plan.routines, r.definition.routine = a.entry ∧
        HomeClass (settingOf a registry profile) plan.unit r.definition.statement name) ∧
    ∀ tree units, (run a registry profile tree).units = .ok units →
      ∀ u ∈ units, u.unit.name = a.entry.module →
        ∃ plan ∈ plansOf a registry, u.unit = plan.unit ∧ ∃ edits,
          (settingOf a registry profile).unitEdits plan = (u.events, .ok edits) ∧
          (settingOf a registry profile).fieldEdit u.unit
            ((Text.sourceLines u.unit.source).map Text.withoutBreak) ∈ edits ∧
          u.source = applyEdits u.unit.source edits := by
  have of := Analysis.of_ofProfile analysed
  have home : (settingOf a registry profile).registry.home = Project.homeOf a.entry :=
    home_settingOf of reached
  refine ⟨?_, fun plan planned own => ?_, fun tree units success u member own => ?_⟩
  · obtain ⟨plan, planned, m, -, unit, named, -⟩ := exists_homePlan of registry
    exact ⟨plan, planned, unit ▸ named⟩
  · obtain ⟨r, member, entry⟩ := exists_entry_of_home of planned own
    refine ⟨r, member, entry, homeClass_of_planned of planned member ?_ ?_⟩
    · rw [entry, method]
    · rw [home]
      exact method
  · obtain ⟨plan, planned, woven⟩ := mem_units success member
    obtain ⟨edits, made, unit, text⟩ := weaveUnit_eq_ok woven
    refine ⟨plan, planned, unit, edits, made, ?_, by rw [text, unit]⟩
    obtain ⟨rebuilt, -, rfl⟩ := unitEdits_eq_ok (congrArg Prod.snd made)
    rw [if_pos, unit]
    · exact List.mem_append_right _ List.mem_cons_self
    · rw [home, ← unit, own]
      rfl

end ProbeWeave.Instrumentation

/-! A method of the second of two classes of one name. -/

namespace ProbeWeave.Weaving.SameName

open Syntax ProbeWeave.Graph Probe Project Files SingleModule

def source : String :=
  "def f():\n    return 1\n\n\nclass T:\n    limit = 3\n\n\nclass T:\n" ++
  "    def run(self):\n        f()\n"

def giving : Stmt :=
  .functionDef ⟨1, 2⟩ false "f" (.mk [] [] none [] none)
    [.returned ⟨2, 2⟩ (some (.constant (.int 1)))] [] none

/-- The first class of the name. -/
def earlier : Stmt :=
  .classDef ⟨5, 6⟩ "T" [] [] [.assign ⟨6, 6⟩ [.name "limit" .store] (.constant (.int 3))] []

def callLine : Stmt := .expression ⟨11, 11⟩ (.call ⟨11, 8⟩ (.name "f" .load) [] [])

def running : Stmt :=
  .functionDef ⟨10, 11⟩ false "run" (.mk [] [.mk "self" none none] none [] none) [callLine] [] none

def body : List Stmt := [giving, earlier, .classDef ⟨9, 11⟩ "T" [] [] [running] []]

def f : Definition := ⟨⟨"m", 0, none, "f", 1⟩, giving⟩
def run : Definition := ⟨⟨"m", 1, some "T", "run", 10⟩, running⟩

def holder : ClassInfo := ⟨"m", "T", [], [running], ⟨[("run", run)]⟩, .empty⟩

def module : Module :=
  ⟨unit source body, ⟨[("f", f)]⟩, ⟨[("T", holder)]⟩, .empty, [f, run]⟩

def project : Project.Project := SingleModule.project module false

set_option maxRecDepth 10000 in
theorem load_project : (load (SingleModule.tree source) ["p"] [] false).1 = .ok project := by
  have parsed : parseModule source = .ok body := by rfl
  exact load_tree parsed (by cbv) false

def profile : Profile :=
  { projectDir := some (.absolute ["p"]), className := "T", methodName := "run", exclude := "",
    generateReport := false }

def analysis : Analysis :=
  ⟨project, run.routine, [], .node run.routine [.node f.routine []],
    ⟨⟨"m", some "T"⟩, [⟨"probe1_f", f.routine⟩], []⟩⟩

theorem ofProfile_source : (Analysis.ofProfile (SingleModule.world source) profile).1 = .ok analysis := by
  have packages : profile.packageList = [] := by cbv
  have exclusions : profile.excludeList = [] := by cbv
  have entered : project.entry? (some "T") "run" = some run.routine := by cbv
  have graph : project.callGraph [] true run.routine = .ok analysis.graph := by cbv
  refine SingleModule.ofProfile_world rfl (by decide) ?_ entered exclusions.symm ?_ (by cbv)
  · rw [packages]
    exact load_project
  · rw [exclusions]
    exact graph

def runPlan : RoutinePlan :=
  ⟨run, [.mk callLine ⟨some ⟨.standalone, "probe1_f"⟩, [], callLine.slot?⟩ []]⟩

def fPlan : RoutinePlan :=
  ⟨f, [.mk (.returned ⟨2, 2⟩ (some (.constant (.int 1)))) ⟨none, [], some (.constant (.int 1))⟩ []]⟩

def plan : UnitPlan := ⟨module.unit, [runPlan, fPlan], .applying⟩

theorem checkCalls_analysis : checkCalls analysis = .ok () := by cbv

theorem mapGraph_analysis : mapGraph analysis analysis.registry =
    ([⟨module.unit, [runPlan, fPlan], .mapping⟩], analysis.registry) := by
  cbv

theorem plansOf_analysis : plansOf analysis analysis.registry = [plan] := by
  rw [plansOf, mapGraph_analysis]
  rfl

def setting : Setting :=
  ⟨analysis, analysis.registry, false, profile.reportVariable, none⟩

theorem settingOf_analysis :
    Instrumentation.settingOf analysis analysis.registry profile = setting := by
  rw [Instrumentation.settingOf, mapGraph_analysis]
  rfl

def runEdit : LineEdit :=
  ⟨10, 11, ["    def run(self):", "        T.probe1_f.start()", "        f()",
    "        T.probe1_f.stop()"]⟩

/-- The probe is declared in front of the first class's statement. -/
def fieldEdit : LineEdit := .insertAt 6 ["    probe1_f = Stopwatch()", ""]

def edits : List LineEdit :=
  [⟨1, 0, ["from timetrack_cli.stopwatch import Stopwatch"]⟩, runEdit, fieldEdit]

def woven : WovenUnit where
  unit := module.unit
  source := "from timetrack_cli.stopwatch import Stopwatch\ndef f():\n    return 1\n\n\n" ++
    "class T:\n    probe1_f = Stopwatch()\n\n    limit = 3\n\n\nclass T:\n    def run(self):\n" ++
    "        T.probe1_f.start()\n        f()\n        T.probe1_f.stop()\n"
  events := [⟨.call, "T.run -> probe1_f", some module.unit.path⟩,
    ⟨.fields, "m.T", some module.unit.path⟩]

def lines : List String :=
  ["def f():", "    return 1", "", "", "class T:", "    limit = 3", "", "", "class T:",
    "    def run(self):", "        f()"]

theorem lines_source : (Text.sourceLines module.unit.source).map Text.withoutBreak = lines := by cbv

theorem fieldEdit_unit : setting.fieldEdit module.unit
    ((Text.sourceLines module.unit.source).map Text.withoutBreak) = fieldEdit := by
  rw [lines_source]
  rfl

set_option maxRecDepth 10000 in
theorem unitEdits_plan : setting.unitEdits plan = (woven.events, .ok edits) := by
  have deep : indentationOf lines runPlan.definition.statement = "    " := by cbv
  have edit : Setting.definitionEdit lines runPlan.definition.statement
      (withBody runPlan.definition.statement (setting.rebuildBody module.unit runPlan).1) =
        .ok runEdit :=
    definitionEdit_eq_ok (text?_eq_ok (by cbv) rfl) (by rw [deep]; rfl)
  have again : setting.rebuilt plan = [runPlan] := by rfl
  have own : plan.unit = module.unit := rfl
  simp only [Setting.unitEdits, again, own, lines_source, Setting.rebuildRoutines,
    Setting.rebuildRoutine]
  rw [edit]
  rfl

set_option maxRecDepth 10000 in
theorem units_source : (Instrumentation.run analysis analysis.registry profile
    (SingleModule.tree source)).units = .ok [woven] := by
  have text : applyEdits module.unit.source edits = woven.source := by cbv
  have changed : (woven.source == module.unit.source) = false := by cbv
  have weaves : setting.weaveUnit plan = (woven.events, .ok (some woven)) := by
    have own : plan.unit = module.unit := rfl
    simp only [Setting.weaveUnit, unitEdits_plan, own, text, changed]
    rfl
  have there : (SingleModule.tree source).isFile plan.unit.path.names = true := rfl
  rw [Instrumentation.units_run (by cbv) (by decide) checkCalls_analysis, plansOf_analysis,
    settingOf_analysis]
  simp only [Instrumentation.applyPlans, Instrumentation.applyPlan, weaves, there]
  rfl

theorem fields_in_class_sameName :
    (Analysis.ofProfile (SingleModule.world source) profile).1 = .ok analysis ∧
    analysis.entry.owner = some "T" ∧
    ∃ r ∈ plan.routines, r.definition.routine = run.routine ∧
      HomeClass setting module.unit r.definition.statement "T" := by
  obtain ⟨-, each, -⟩ := Instrumentation.fields_in_class ofProfile_source .own
    (show analysis.entry.owner = some "T" from rfl)
  rw [settingOf_analysis, plansOf_analysis] at each
  exact ⟨ofProfile_source, rfl, each plan List.mem_cons_self rfl⟩

/-- The probe is declared in the first class of the name, and not in the one that holds the entry. -/
theorem misplaced_sameName :
    (Analysis.ofProfile (SingleModule.world source) profile).1 = .ok analysis ∧
    analysis.entry = run.routine ∧
    (Instrumentation.run analysis analysis.registry profile (SingleModule.tree source)).units =
      .ok [woven] ∧
    woven.source =
      "from timetrack_cli.stopwatch import Stopwatch\ndef f():\n    return 1\n\n\n" ++
      "class T:\n    probe1_f = Stopwatch()\n\n    limit = 3\n\n\nclass T:\n    def run(self):\n" ++
      "        T.probe1_f.start()\n        f()\n        T.probe1_f.stop()\n" ∧
    .classDef ⟨9, 11⟩ "T" [] [] [run.statement] [] ∈ module.unit.body ∧
    ¬DeclaredIn setting module.unit ⟨9, 11⟩ [run.statement] := by
  refine ⟨ofProfile_source, rfl, units_source, rfl, .tail _ (.tail _ (.head _)), ?_⟩
  rintro ⟨above, anchor, below, edit, -, strict, -⟩
  rw [fieldEdit_unit] at edit
  have line : (6 : Int) = firstLine anchor := congrArg LineEdit.first edit
  dsimp only at strict
  omega

end ProbeWeave.Weaving.SameName
