import ProbeWeave.Proofs.Project.Analysed
import ProbeWeave.Proofs.Project.SingleModule
import ProbeWeave.Proofs.Weaving.Marking
import ProbeWeave.Weaving.Plan

/-! # Which names temporaries pass over

The temporaries of a routine are the first names of their stem, in the order of their numbers, that
the routine uses neither as a variable nor as a parameter. A name that it mentions in no other way
than as text, in an import, a handler, a pattern, a definition or a declaration, is not passed over.
-/

namespace ProbeWeave

open Syntax ProbeWeave.Graph Probe Project Files

namespace Syntax

/-- How a name can be mentioned. -/
inductive MentionForm where
  /-- A name that is read, assigned or deleted. -/
  | variable
  | parameter
  /-- What an import binds. -/
  | imported
  /-- The name of a caught exception. -/
  | handler
  /-- A name in a pattern. -/
  | capture
  /-- A function or class. -/
  | definition
  /-- A name declared to be global or to belong to a function around. -/
  | declaration
  deriving DecidableEq, Repr

/-- Whether mapping looks for names that are mentioned so. -/
def MentionForm.noticed : MentionForm → Bool
  | .variable | .parameter => true
  | _ => false

/-- The names that a node mentions itself, and how. -/
def Node.mentions : Node → List (MentionForm × String)
  | .expr (.name id _) => [(.variable, id)]
  | .parameter p => [(.parameter, p.name)]
  | .stmt (.imports _ names) =>
    names.map fun a => (.imported, a.boundAs.getD ((a.name.splitOn ".").headD ""))
  | .stmt (.importsFrom _ _ names _) => names.map fun a => (.imported, a.boundAs.getD a.name)
  | .handler (.mk _ (some id) _) => [(.handler, id)]
  | .pattern (.bind _ (some id)) | .pattern (.star (some id)) | .pattern (.mapping _ _ (some id)) =>
    [(.capture, id)]
  | .stmt (.functionDef _ _ id ..) | .stmt (.classDef _ id ..) => [(.definition, id)]
  | .stmt (.globals _ names) | .stmt (.nonlocals _ names) => names.map (.declaration, ·)
  | _ => []

end Syntax

namespace Weaving

open Supply

/-- A routine mentions a name in a form, itself or in what is nested in it. -/
def Mentions (d : Definition) (form : MentionForm) (id : String) : Prop :=
  ∃ part ∈ (Node.stmt d.statement).children, ∃ n ∈ part.preorder, (form, id) ∈ n.mentions

/-- The temporaries that mapping hands out for a routine. -/
def RoutinePlan.temporaries (plan : RoutinePlan) : List String :=
  Marked.blockTemporaries plan.body

variable {d : Definition} {id : String}

/-- The name of a node that counts as taken. -/
def takenName? : Node → Option String
  | .expr (.name id _) => some id
  | .parameter p => some p.name
  | _ => none

theorem takenNames_eq (d : Definition) :
    takenNames d = (Node.stmt d.statement).preorder.filterMap takenName? := rfl

theorem takenName?_eq_some {n : Node} :
    takenName? n = some id ↔ ∃ form, form.noticed = true ∧ (form, id) ∈ n.mentions := by
  fun_cases Node.mentions n
  all_goals simp [takenName?, MentionForm.noticed]
  all_goals exact eq_comm

/-- The names that are taken are those of variables and parameters. -/
theorem mem_takenNames :
    id ∈ takenNames d ↔ ∃ form, form.noticed = true ∧ Mentions d form id := by
  have root : takenName? (.stmt d.statement) = none := rfl
  rw [takenNames_eq, Node.preorder_eq, List.filterMap_cons_none root]
  simp only [List.mem_filterMap, List.mem_flatMap, takenName?_eq_some, Mentions]
  constructor
  · rintro ⟨n, ⟨part, child, below⟩, form, noticed, mentioned⟩
    exact ⟨form, noticed, part, child, n, below, mentioned⟩
  · rintro ⟨form, noticed, part, child, n, below, mentioned⟩
    exact ⟨n, ⟨part, child, below⟩, form, noticed, mentioned⟩

theorem issued_mapRoutine (a : Analysis) (caller : Caller) (registry : Registry) :
    ∃ after, Issued (fresh temporaryStem (takenNames caller.definition))
      (mapRoutine a caller registry).1.temporaries after :=
  ⟨_, Timing.issued_block _ (fun s _ => Timing.issued_markStmt _ s)
    ⟨fresh temporaryStem (takenNames caller.definition), registry⟩⟩

/-- The temporaries of a routine.

They differ from each other, and they are the names up to some number that the routine mentions
neither as a variable nor as a parameter. So no temporary is a name of the routine exactly if each
of these names that the routine mentions is one of its variables or parameters. -/
theorem temporaries_pass_over (a : Analysis) (caller : Caller) (registry : Registry) :
    (mapRoutine a caller registry).1.temporaries.Nodup ∧
    ∃ last : Nat,
      (∀ id, id ∈ (mapRoutine a caller registry).1.temporaries ↔
        ∃ n, 0 < n ∧ n ≤ last ∧ temporaryStem ++ toString n = id ∧
          ∀ form, form.noticed = true → ¬ Mentions caller.definition form id) ∧
      ((∀ id ∈ (mapRoutine a caller registry).1.temporaries, ∀ form,
          ¬ Mentions caller.definition form id) ↔
        ∀ n, 0 < n → n ≤ last →
          (∃ form, Mentions caller.definition form (temporaryStem ++ toString n)) →
          ∃ form, form.noticed = true ∧
            Mentions caller.definition form (temporaryStem ++ toString n)) := by
  obtain ⟨after, issued⟩ := issued_mapRoutine a caller registry
  obtain ⟨ns, named, -, numbers⟩ := issued.numbers
  have temporary (id : String) : id ∈ (mapRoutine a caller registry).1.temporaries ↔
      ∃ n, 0 < n ∧ n ≤ after.count ∧ temporaryStem ++ toString n = id ∧
        ∀ form, form.noticed = true → ¬ Mentions caller.definition form id := by
    rw [named, List.mem_map]
    constructor
    · rintro ⟨n, member, rfl⟩
      obtain ⟨above, below, free⟩ := (numbers n).mp member
      refine ⟨n, above, below, rfl, fun form noticed mentioned => free ?_⟩
      exact mem_takenNames.mpr ⟨form, noticed, mentioned⟩
    · rintro ⟨n, above, below, rfl, free⟩
      refine ⟨n, (numbers n).mpr ⟨above, below, fun taken => ?_⟩, rfl⟩
      obtain ⟨form, noticed, mentioned⟩ := mem_takenNames.mp taken
      exact free form noticed mentioned
  refine ⟨issued.nodup, after.count, temporary, fun fresh n above below => ?_, fun all id member => ?_⟩
  · rintro ⟨form, mentioned⟩
    by_contra unnoticed
    refine fresh _ ((temporary _).mpr ⟨n, above, below, rfl, fun form noticed mentioned => ?_⟩) form
      mentioned
    exact unnoticed ⟨form, noticed, mentioned⟩
  · obtain ⟨n, above, below, rfl, free⟩ := (temporary id).mp member
    intro form mentioned
    obtain ⟨form, noticed, mentioned⟩ := all n above below ⟨form, mentioned⟩
    exact free form noticed mentioned

/-! A routine that declares a name of the stem to be global. -/

namespace DeclaredName

open SingleModule

def source : String :=
  "def f():\n    return 1\n\n\ndef run():\n    global _timetrack_result1\n    return f()\n"

def giving : Stmt :=
  .functionDef ⟨1, 2⟩ false "f" (.mk [] [] none [] none)
    [.returned ⟨2, 2⟩ (some (.constant (.int 1)))] [] none

def declaring : Stmt := .globals ⟨6, 6⟩ ["_timetrack_result1"]

def running : Stmt :=
  .functionDef ⟨5, 7⟩ false "run" (.mk [] [] none [] none)
    [declaring, .returned ⟨7, 7⟩ (some (.call ⟨7, 11⟩ (.name "f" .load) [] []))] [] none

def f : Definition := ⟨⟨"m", 0, none, "f", 1⟩, giving⟩
def run : Definition := ⟨⟨"m", 1, none, "run", 5⟩, running⟩

def module : Module :=
  ⟨unit source [giving, running], ⟨[("f", f), ("run", run)]⟩, .empty, .empty, [f, run]⟩

def project : Project.Project := SingleModule.project module false

set_option maxRecDepth 10000 in
theorem load_project : (load (SingleModule.tree source) ["p"] [] false).1 = .ok project := by
  have parsed : parseModule source = .ok [giving, running] := by rfl
  exact load_tree parsed (by cbv) false

def world : World := ⟨SingleModule.tree source, .absolute [], .absolute []⟩

def profile : Profile :=
  { projectDir := some (.absolute ["p"]), methodName := "run", exclude := "", generateReport := false }

def analysis : Analysis :=
  ⟨project, run.routine, [], .node run.routine [.node f.routine []],
    ⟨⟨"m", none⟩, [⟨"probe1_f", f.routine⟩], []⟩⟩

theorem ofProfile_world : (Analysis.ofProfile world profile).1 = .ok analysis := by
  have packages : profile.packageList = [] := by cbv
  have exclusions : profile.excludeList = [] := by cbv
  have entered : project.entry? (some "") "run" = some run.routine := by cbv
  have graph : project.callGraph [] true run.routine = .ok analysis.graph := by cbv
  refine SingleModule.ofProfile_world rfl (by decide) ?_ entered exclusions.symm ?_ (by cbv)
  · rw [packages]
    exact load_project
  · rw [exclusions]
    exact graph

/-- The temporary of the returned call is the name that the routine declares to be global. -/
theorem temporary_declared :
    (Analysis.ofProfile world profile).1 = .ok analysis ∧ run.routine ∈ analysis.graph.routines ∧
      Mentions run .declaration "_timetrack_result1" ∧
      (mapGraph analysis analysis.registry).1.flatMap (fun plan =>
        plan.routines.map fun r => (r.definition.routine, r.temporaries)) =
          [(run.routine, ["_timetrack_result1"]), (f.routine, [])] := by
  have routines : analysis.graph.routines = [run.routine, f.routine] := by cbv
  refine ⟨ofProfile_world, routines ▸ List.mem_cons_self,
    ⟨.stmt declaring, ?_, .stmt declaring, ?_, ?_⟩, ?_⟩
  · exact List.mem_cons_of_mem _ List.mem_cons_self
  · rw [Node.preorder_eq]
    exact List.mem_cons_self
  · exact List.mem_cons_self
  · cbv

end DeclaredName

end Weaving

end ProbeWeave
