import ProbeWeave.Proofs.Syntax.Decorated
import ProbeWeave.Proofs.Weaving.HomeModule

/-! # Where edits stand among statements

The lines that a rebuilt definition is put in the place of hold no other statement. They hold the
`@` that the definition begins with exactly if the expression behind it begins on the same line: what
stands above that expression is left in the text. What is inserted stands below the statements that
are passed over exactly if none of them shares a line with the next one.
-/

namespace ProbeWeave.Weaving

open Syntax ProbeWeave.Graph Probe Project Outcome

/-! ### Definitions among statements -/

/-- Whether two statements share no line. -/
def Apart (s t : Stmt) : Prop :=
  s.lines.last < firstLine t ∨ t.lines.last < firstLine s

section Definitions

variable {last : Nat} {body : List Stmt} {x : Option String × Stmt}

end Definitions

/-! ### Lines in front of statements -/

/-- A line in front of the statements of a scope that are not passed over. -/
structure Between (scope : List Stmt) (passed : Stmt → Bool) (line : Nat)
    (above below : List Stmt) : Prop where
  split : scope = above ++ below
  head : ∀ s ∈ above.head?, s.isText = true ∨ passed s = true
  tail : ∀ s ∈ above.tail, passed s = true
  stops : ∀ s ∈ below.head?, passed s = false
  upward : ∀ s ∈ below, line ≤ firstLine s
  below_iff : (∀ s ∈ above, s.lines.last < line) ↔
    ∀ s ∈ above, ∀ t ∈ below, s.lines.last < firstLine t

section Between

variable {first last : Nat} {scope above below : List Stmt} {passed : Stmt → Bool}

/-- The line of the next statement. -/
theorem between_of_cons {s : Stmt} {rest : List Stmt} (lie : Lie first last scope)
    (split : scope = above ++ s :: rest)
    (head : ∀ s ∈ above.head?, s.isText = true ∨ passed s = true)
    (tail : ∀ s ∈ above.tail, passed s = true) (stops : passed s = false) :
    Between scope passed (firstLine s) above (s :: rest) := by
  have upward : ∀ t ∈ s :: rest, firstLine s ≤ firstLine t := by
    refine List.forall_mem_cons.mpr ⟨Nat.le_refl _, fun t member => ?_⟩
    have ordered := (List.pairwise_append.mp (split ▸ lie.ordered)).2.1
    have precedes := (List.pairwise_cons.mp ordered).1 t member
    have upright := (lie.inside s (split ▸ List.mem_append_right _ List.mem_cons_self)).2.1
    exact Nat.le_trans upright precedes.1
  refine ⟨split, head, tail, by simpa using stops, upward, fun beneath p member t later => ?_,
    fun beneath p member => beneath p member s List.mem_cons_self⟩
  exact Nat.lt_of_lt_of_le (beneath p member) (upward t later)

theorem exists_behindText (scope : List Stmt) :
    ∃ texts, scope = texts ++ behindText scope ∧
      (texts = [] ∨ ∃ text, text.isText = true ∧ texts = [text]) := by
  cases scope with
  | nil => exact ⟨[], rfl, .inl rfl⟩
  | cons s rest =>
    rw [behindText]
    split
    · rename_i text
      exact ⟨[s], rfl, .inr ⟨s, text, rfl⟩⟩
    · exact ⟨[], rfl, .inl rfl⟩

/-- At most the first statement is a text that is passed over as such. -/
theorem passed_append (passed : Stmt → Bool) {texts : List Stmt} (early : List Stmt)
    (some : texts = [] ∨ ∃ text, text.isText = true ∧ texts = [text])
    (skipped : ∀ s ∈ early, passed s = true) :
    (∀ s ∈ (texts ++ early).head?, s.isText = true ∨ passed s = true) ∧
      ∀ s ∈ (texts ++ early).tail, passed s = true := by
  rcases some with rfl | ⟨text, isText, rfl⟩
  · exact ⟨fun s first => .inr (skipped s (List.mem_of_head? first)),
      fun s later => skipped s (List.mem_of_mem_tail later)⟩
  · refine ⟨fun s first => .inl ?_, skipped⟩
    obtain rfl : text = s := Option.some.inj first
    exact isText

/-- The statements of a class behind its text, or all if there are no others. -/
theorem between_fieldAnchor (lie : Lie first last scope) {s : Stmt}
    (found : Setting.fieldAnchor? scope = some s) :
    ∃ above rest, Between scope (fun _ => false) (firstLine s) above (s :: rest) := by
  unfold Setting.fieldAnchor? at found
  split at found
  · rename_i next rest behind
    cases found
    obtain ⟨texts, split, some⟩ := exists_behindText scope
    obtain ⟨head, tail⟩ := passed_append (fun _ => false) [] some (by simp)
    rw [List.append_nil] at head tail
    rw [behind] at split
    exact ⟨_, _, between_of_cons lie split head tail rfl⟩
  · obtain ⟨rest, rfl⟩ := List.head?_eq_some_iff.mp found
    exact ⟨[], _, between_of_cons lie rfl (by simp) (by simp) rfl⟩

end Between

/-! ### The edits of a module -/

variable {a : Analysis} {registry : Registry} {profile : Profile} {setting : Setting}
  {plan : UnitPlan} {edits : List LineEdit}

end ProbeWeave.Weaving

namespace ProbeWeave.Instrumentation

open Weaving Probe

end ProbeWeave.Instrumentation

/-! A decorator whose expression stands below its `@`. -/

namespace ProbeWeave.Weaving.SplitDecorator

open Syntax ProbeWeave.Graph Probe Project Files

/-- A call of the function with itself. -/
def callLine : Stmt :=
  .expression ⟨9, 9⟩ (.call ⟨9, 4⟩ (.name "f" .load) [.name "f" .load] [])

/-- The entry routine, decorated with an expression on a line of its own. -/
def entered : Stmt :=
  .functionDef ⟨8, 9⟩ false "run" default [callLine] [⟨6, .name "f" .load⟩] none

def unit : SourceUnit where
  path := .absolute ["p", "m.py"]
  relative := ⟨0, ["m.py"]⟩
  name := "m"
  isPackage := false
  source := "def f(g):\n    return g\n\n\n@(\n    f\n)\ndef run():\n    f(f)\n"
  body := [.functionDef ⟨1, 2⟩ false "f" (.mk [] [.mk "g" none none] none [] none)
      [.returned ⟨2, 2⟩ (some (.name "g" .load))] [] none, entered]

def tree : FileTree :=
  ⟨[(["p"], .directory), (["p", "m.py"], .file unit.source.toUTF8)]⟩

def world : World := ⟨tree, .absolute [], .absolute []⟩

def profile : Profile :=
  { projectDir := some (.absolute ["p"]), methodName := "run", exclude := "", generateReport := false }

def project : Project.Project :=
  ⟨.absolute ["p"], ⟨[("m", unit.index)]⟩, [], false⟩

def f : Routine := ⟨"m", 0, none, "f", 1⟩
def run : Routine := ⟨"m", 1, none, "run", 8⟩

def analysis : Analysis :=
  ⟨project, run, [], .node run [.node f []], ⟨⟨"m", none⟩, [⟨"probe1_f", f⟩], []⟩⟩

set_option maxRecDepth 10000 in
theorem readUnit_unit : readUnit ["p"] false ["p", "m.py"] unit.source.toUTF8 = .unit unit := by
  have parsed : parseModule unit.source = .ok unit.body := by rfl
  exact readUnit_of_parsed (by decide +kernel) parsed rfl rfl (by decide +kernel)

theorem load_tree : (load tree ["p"] [] false).1 = .ok project := by
  have files : moduleFiles tree (tree.depth + 1) ["p"] = [["p", "m.py"]] := by cbv
  have flat : tree.isDirectory (["p"] ++ ["src"]) = false := by decide +kernel
  have there : tree.at? ["p", "m.py"] = some (.file unit.source.toUTF8) := rfl
  have added : addFiles tree ["p"] false [["p", "m.py"]] .empty = (.ok project.modules, []) := by
    simp only [addFiles, there, readUnit_unit]
    rfl
  simp only [load, files, flat, added]
  rfl

theorem ofProfile_world : (Analysis.ofProfile world profile).1 = .ok analysis := by
  have packages : profile.packageList = [] := by cbv
  have resolved : world.resolve? (.ofText (Path.absolute ["p"]).text) = some (.absolute ["p"]) := by
    cbv
  have exclusions : profile.excludeList = [] := by cbv
  have entry : project.entry? (some "") "run" = some run := by cbv
  have graph : project.callGraph [] true run = .ok analysis.graph := by cbv
  have registry : Registry.ofGraph analysis.graph (homeOf run) = analysis.registry := by cbv
  refine Analysis.ofProfile_eq_ok.mpr ⟨.absolute ["p"], project, rfl, by decide, ?_, ?_⟩
  · rw [packages]
    exact Analysis.openAt_eq_ok.mpr ⟨.absolute ["p"], resolved, rfl, load_tree⟩
  · rw [Analysis.ofProject_eq_ok, exclusions]
    exact ⟨run, analysis.graph, entry, graph, by rw [registry]; rfl⟩

def runPlan : RoutinePlan :=
  ⟨⟨run, entered⟩,
    [.mk callLine ⟨some ⟨.standalone, "probe1_f"⟩, [], callLine.slot?⟩ []]⟩

def fPlan : RoutinePlan :=
  ⟨⟨f, .functionDef ⟨1, 2⟩ false "f" (.mk [] [.mk "g" none none] none [] none)
      [.returned ⟨2, 2⟩ (some (.name "g" .load))] [] none⟩,
    [.mk (.returned ⟨2, 2⟩ (some (.name "g" .load))) ⟨none, [], some (.name "g" .load)⟩ []]⟩

theorem checkCalls_analysis : checkCalls analysis = .ok () := by cbv

theorem mapGraph_analysis : mapGraph analysis analysis.registry =
    ([⟨unit, [runPlan, fPlan], .mapping⟩], analysis.registry) := by
  cbv

def setting : Setting :=
  ⟨analysis, analysis.registry, false, profile.reportVariable, none⟩

theorem settingOf_analysis :
    Instrumentation.settingOf analysis analysis.registry profile = setting := by
  rw [Instrumentation.settingOf, mapGraph_analysis]
  rfl

theorem plansOf_analysis :
    plansOf analysis analysis.registry = [⟨unit, [runPlan, fPlan], .applying⟩] := by
  rw [plansOf, mapGraph_analysis]
  rfl

/-- The definition is printed in the place of the lines from the expression of its decorator on. -/
def runEdit : LineEdit :=
  ⟨6, 9, ["@f", "def run():", "    probe1_f.start()", "    f(f)", "    probe1_f.stop()"]⟩

def edits : List LineEdit :=
  [⟨1, 0, ["from timetrack_cli.stopwatch import Stopwatch"]⟩, runEdit,
    ⟨1, 0, ["probe1_f = Stopwatch()", ""]⟩]

def woven : WovenUnit where
  unit := unit
  source := "from timetrack_cli.stopwatch import Stopwatch\nprobe1_f = Stopwatch()\n\n" ++
    "def f(g):\n    return g\n\n\n@(\n@f\ndef run():\n    probe1_f.start()\n    f(f)\n    probe1_f.stop()\n"
  events := [⟨.call, "run -> probe1_f", some unit.path⟩, ⟨.fields, "m", some unit.path⟩]

end ProbeWeave.Weaving.SplitDecorator
