import Mathlib
import ProbeWeave.Proofs.Project.Analysed
import ProbeWeave.Weaving.Plan

/-! # What is analysed is what is timed

The call graph and mapping decide apart from each other which calls count: the graph has an edge for
every call that is kept, mapping times a call if its routine has a probe. The registry stands between
them. It has a probe for every routine below the root of the graph, so the children of any node have
one, and the entry has one only if a call leads back to it.
-/

namespace ProbeWeave

open Syntax ProbeWeave.Graph Outcome

namespace Probe.Registry

/-- The name of the probe of a routine. -/
def probeName? (registry : Registry) (r : Routine) : Option String :=
  (registry.probeFor? r).map (·.name)

/-- A routine has a probe exactly if it occurs below the root of the graph. -/
theorem isSome_probeName?_ofGraph {root : CallTree} {home : Home} {loops : List LoopProbe}
    {r : Routine} :
    (probeName? { ofGraph root home with loops } r).isSome = true ↔
      r ∈ CallTree.occurrences root.children := by
  rw [probeName?, Option.isSome_map, probeFor?, List.find?_isSome, CallTree.occurrences,
    ← CallTree.mem_distinct]
  constructor
  · rintro ⟨probe, member, same⟩
    obtain ⟨i, found⟩ := List.mem_iff_getElem?.mp member
    simp only [ofGraph, List.getElem?_mapIdx, Option.map_eq_some_iff] at found
    obtain ⟨other, occurs, rfl⟩ := found
    obtain rfl : other = r := eq_of_beq same
    exact List.mem_of_getElem? occurs
  · intro occurs
    obtain ⟨i, found⟩ := List.mem_iff_getElem?.mp occurs
    refine ⟨routineProbe i r, ?_, by simp [routineProbe]⟩
    apply List.mem_of_getElem? (i := i)
    simp [ofGraph, found]

end Probe.Registry

namespace Weaving

open Project Probe Files

section

variable {a : Analysis} {profile : Profile} {registry : Registry} {caller : Caller} {call : Call}

/-- The routine that a call runs, if the call is kept and this can be told. -/
def keptOrNone (a : Analysis) (caller : Caller) (call : Call) : Option Routine :=
  ((a.project.keptTarget? a.exclusions caller call).toOption).join

theorem probeOf_eq :
    (timingOf a registry caller).probeOf call =
      (keptOrNone a caller call).bind registry.probeName? := by
  rw [timingOf, keptOrNone]
  refine congrArg (Option.bind _) (funext fun t => ?_)
  rw [Registry.probeName?, Option.map_eq_bind]
  rfl

theorem keptOrNone_eq_some {t : Routine} :
    keptOrNone a caller call = some t ↔
      a.project.keptTarget? a.exclusions caller call = .ok (some t) := by
  rw [keptOrNone]
  cases a.project.keptTarget? a.exclusions caller call with
  | error fault => simp [Except.toOption]
  | ok found => simp [Except.toOption]

/-- A call is timed exactly if it is kept and its routine has a probe. -/
theorem isSome_probeOf :
    ((timingOf a registry caller).probeOf call).isSome = true ↔
      ∃ t, a.project.keptTarget? a.exclusions caller call = .ok (some t) ∧
        (registry.probeName? t).isSome = true := by
  rw [probeOf_eq]
  constructor
  · intro timed
    obtain ⟨name, named⟩ := Option.isSome_iff_exists.mp timed
    obtain ⟨t, kept, probed⟩ := Option.bind_eq_some_iff.mp named
    exact ⟨t, keptOrNone_eq_some.mp kept, Option.isSome_iff_exists.mpr ⟨name, probed⟩⟩
  · rintro ⟨t, kept, probed⟩
    rw [keptOrNone_eq_some.mpr kept]
    exact probed

/-- The callees of a routine that can be told are the routines of its kept calls, in their order. -/
theorem filterMap_keptOrNone {r : Routine} {targets : List Routine}
    (found : a.project.caller? r = some caller)
    (told : a.project.callees a.exclusions r = .ok targets) :
    (calls caller.definition.body).filterMap (keptOrNone a caller) = targets := by
  rw [Project.callees, ProgramModel.callees, bind_eq_ok] at told
  obtain ⟨options, asked, told⟩ := told
  rw [pure_eq_ok] at told
  rw [Project.model_body found, Project.model_keptTarget? found, mapM_eq_ok] at asked
  have options_eq : (calls caller.definition.body).map (keptOrNone a caller) = options := by
    have joined := congrArg (List.map fun kept => (Except.toOption kept).join) asked
    rw [List.map_map, List.map_map] at joined
    exact joined.trans (List.map_id _)
  rw [← told, ← options_eq, List.filterMap_map]
  rfl

/-- The probes of the calls of a routine are those of its callees. -/
theorem filterMap_probeOf {r : Routine} {targets : List Routine}
    (found : a.project.caller? r = some caller)
    (told : a.project.callees a.exclusions r = .ok targets) :
    (calls caller.definition.body).filterMap (timingOf a registry caller).probeOf =
      targets.filterMap registry.probeName? := by
  rw [← filterMap_keptOrNone found told, List.filterMap_filterMap]
  congr 1
  funext call
  exact probeOf_eq

/-- The routines of the nodes of a graph but its root have probes. -/
theorem isSome_probeName?_child {graph node child : CallTree} {home : Home}
    {loops : List LoopProbe} (inGraph : node ∈ graph.walk) (below : child ∈ node.children) :
    (Registry.probeName? { Registry.ofGraph graph home with loops } child.routine).isSome = true := by
  rw [Registry.isSome_probeName?_ofGraph]
  exact List.mem_map_of_mem (CallTree.child_mem_walkAll inGraph below)

theorem filterMap_eq_of_isSome {α β : Type} {f : α → Option β} {as : List α}
    (all : ∀ x ∈ as, (f x).isSome = true) : (as.filterMap f).map some = as.map f := by
  induction as with
  | nil => rfl
  | cons x rest ih =>
    obtain ⟨here, others⟩ := List.forall_mem_cons.mp all
    obtain ⟨y, found⟩ := Option.isSome_iff_exists.mp here
    rw [List.filterMap_cons_some found, List.map_cons, List.map_cons, ih others, found]

/-- In a recursive analysis exactly the kept calls of a routine are timed, and their probes are those
of the children of its first node, in their order. -/
theorem recursive_agreement (of : a.Of profile) (recursive : profile.recursive = true)
    (loops : List LoopProbe) {r : Routine} (inGraph : r ∈ a.graph.routines)
    (found : a.project.caller? r = some caller) :
    ∃ node, a.graph.expansion? r = some node ∧
      a.project.callees a.exclusions r = .ok (node.children.map CallTree.routine) ∧
      (∀ call ∈ calls caller.definition.body,
        (((timingOf a { a.registry with loops } caller).probeOf call).isSome = true ↔
          ∃ t, a.project.keptTarget? a.exclusions caller call = .ok (some t))) ∧
      ((calls caller.definition.body).filterMap
          (timingOf a { a.registry with loops } caller).probeOf).map some =
        node.children.map fun child => Registry.probeName? { a.registry with loops } child.routine := by
  have built := of.graph
  rw [recursive] at built
  obtain ⟨node, inside, expanded, told⟩ := ProgramModel.callGraph_expands built inGraph
  rw [of.registry]
  have probed : ∀ t ∈ node.children.map CallTree.routine,
      (Registry.probeName? { Registry.ofGraph a.graph (homeOf a.entry) with loops } t).isSome =
        true := by
    intro t member
    obtain ⟨child, below, rfl⟩ := List.mem_map.mp member
    exact isSome_probeName?_child inside below
  refine ⟨node, expanded, told, fun call inBody => ?_, ?_⟩
  · rw [isSome_probeOf]
    constructor
    · rintro ⟨t, kept, -⟩
      exact ⟨t, kept⟩
    · rintro ⟨t, kept⟩
      have callee : t ∈ node.children.map CallTree.routine := by
        rw [← filterMap_keptOrNone found told]
        exact List.mem_filterMap.mpr ⟨call, inBody, keptOrNone_eq_some.mpr kept⟩
      exact ⟨t, kept, probed t callee⟩
  · rw [filterMap_probeOf found told, filterMap_eq_of_isSome probed, List.map_map]
    rfl

/-- The callees of the entry are known and are what the graph of direct calls has below its root. -/
theorem callees_of_direct (of : a.Of profile) (direct : profile.recursive = false) :
    ∃ targets, a.project.callees a.exclusions a.entry = .ok targets := by
  have built := of.graph
  rw [direct] at built
  obtain ⟨-, told⟩ := ProgramModel.callGraph_eq_ok.mp built
  exact told a.entry (List.mem_singleton_self _)

/-- In an analysis of direct calls a call is timed if it is kept and runs a callee of the entry. -/
theorem direct_agreement (of : a.Of profile) (direct : profile.recursive = false)
    {targets : List Routine} (told : a.project.callees a.exclusions a.entry = .ok targets)
    (loops : List LoopProbe) (caller : Caller) (call : Call) :
    ((timingOf a { a.registry with loops } caller).probeOf call).isSome = true ↔
      ∃ t ∈ targets, a.project.keptTarget? a.exclusions caller call = .ok (some t) := by
  have built := of.graph
  rw [direct] at built
  obtain ⟨graph, -⟩ := ProgramModel.callGraph_eq_ok.mp built
  have below : CallTree.occurrences a.graph.children = targets := by
    simp only [Bool.false_eq_true, if_false] at graph
    rw [graph, CallTree.direct, CallTree.children, CallTree.occurrences_leaves]
    exact ProgramModel.calleesOrNone_of_found told
  rw [isSome_probeOf, of.registry]
  simp only [Registry.isSome_probeName?_ofGraph, below]
  constructor
  · rintro ⟨t, kept, member⟩
    exact ⟨t, member, kept⟩
  · rintro ⟨t, member, kept⟩
    exact ⟨t, kept, member⟩

/-- The call graph and mapping agree on which calls count, whatever loops have a probe.

If the graph is recursive, the calls of a routine that are timed are those that are kept, and their
probes are the probes of the children of the node where the routine is expanded, in the order of the
calls. Otherwise a call is timed if it is kept and runs a routine that the entry calls, too. -/
theorem analysis_agrees {w : Files.World} (analysed : (Analysis.ofProfile w profile).1 = .ok a)
    (loops : List LoopProbe) {r : Routine} (inGraph : r ∈ a.graph.routines) :
    ∃ caller, a.project.caller? r = some caller ∧ caller.definition.routine = r ∧
      (profile.recursive = true → ∃ node, a.graph.expansion? r = some node ∧
        a.project.callees a.exclusions r = .ok (node.children.map CallTree.routine) ∧
        (∀ call ∈ calls caller.definition.body,
          (((timingOf a { a.registry with loops } caller).probeOf call).isSome = true ↔
            ∃ t, a.project.keptTarget? a.exclusions caller call = .ok (some t))) ∧
        ((calls caller.definition.body).filterMap
            (timingOf a { a.registry with loops } caller).probeOf).map some =
          node.children.map fun child =>
            Registry.probeName? { a.registry with loops } child.routine) ∧
      (profile.recursive = false → ∃ targets,
        a.project.callees a.exclusions a.entry = .ok targets ∧
        ∀ call ∈ calls caller.definition.body,
          (((timingOf a { a.registry with loops } caller).probeOf call).isSome = true ↔
            ∃ t ∈ targets, a.project.keptTarget? a.exclusions caller call = .ok (some t))) := by
  have of := Analysis.of_ofProfile analysed
  obtain ⟨caller, found, own⟩ := of.caller? inGraph
  refine ⟨caller, found, own, fun recursive => ?_, fun direct => ?_⟩
  · exact recursive_agreement of recursive loops inGraph found
  · obtain ⟨targets, told⟩ := callees_of_direct of direct
    exact ⟨targets, told, fun call _ => direct_agreement of direct told loops caller call⟩

end

/-! A function imported from another module, which calls a third one. -/

namespace TwoModules

/-- A statement that calls a function without arguments. -/
def callLine (line : Nat) (name : String) : Stmt :=
  .expression ⟨line, line⟩ (.call ⟨line, 4⟩ (.name name .load) [] [])

/-- The module of the entry routine: it imports a function and calls it. -/
def callerUnit : SourceUnit where
  path := .absolute ["p", "a.py"]
  relative := ⟨0, ["a.py"]⟩
  name := "a"
  isPackage := false
  source := "from b import f\n\n\ndef run():\n    f()\n"
  body := [.importsFrom ⟨1, 1⟩ (some "b") [⟨"f", none⟩] 0,
    .functionDef ⟨4, 5⟩ false "run" default [callLine 5 "f"] [] none]

/-- The other module: the function calls another one. -/
def calledUnit : SourceUnit where
  path := .absolute ["p", "b.py"]
  relative := ⟨0, ["b.py"]⟩
  name := "b"
  isPackage := false
  source := "def f():\n    g()\n\n\ndef g():\n    pass\n"
  body := [.functionDef ⟨1, 2⟩ false "f" default [callLine 2 "g"] [] none,
    .functionDef ⟨5, 6⟩ false "g" default [.pass ⟨6, 6⟩] [] none]

def tree : FileTree :=
  ⟨[(["p"], .directory), (["p", "a.py"], .file callerUnit.source.toUTF8),
    (["p", "b.py"], .file calledUnit.source.toUTF8)]⟩

def world : World := ⟨tree, .absolute [], .absolute []⟩

def profile : Profile :=
  { projectDir := some (.absolute ["p"]), methodName := "run", exclude := "", generateReport := false }

def project : Project.Project :=
  ⟨.absolute ["p"], ⟨[("a", callerUnit.index), ("b", calledUnit.index)]⟩, [], false⟩

def run : Routine := ⟨"a", 0, none, "run", 4⟩
def f : Routine := ⟨"b", 0, none, "f", 1⟩
def g : Routine := ⟨"b", 1, none, "g", 5⟩

set_option maxRecDepth 10000 in
theorem readUnit_caller :
    readUnit ["p"] false ["p", "a.py"] callerUnit.source.toUTF8 = .unit callerUnit := by
  have parsed : parseModule callerUnit.source = .ok callerUnit.body := by rfl
  exact readUnit_of_parsed (by decide +kernel) parsed rfl rfl (by decide +kernel)

set_option maxRecDepth 10000 in
theorem readUnit_called :
    readUnit ["p"] false ["p", "b.py"] calledUnit.source.toUTF8 = .unit calledUnit := by
  have parsed : parseModule calledUnit.source = .ok calledUnit.body := by rfl
  exact readUnit_of_parsed (by decide +kernel) parsed rfl rfl (by decide +kernel)

theorem load_tree : (load tree ["p"] [] false).1 = .ok project := by
  have files : moduleFiles tree (tree.depth + 1) ["p"] = [["p", "a.py"], ["p", "b.py"]] := by
    cbv
  have flat : tree.isDirectory (["p"] ++ ["src"]) = false := by decide +kernel
  have caller : tree.at? ["p", "a.py"] = some (.file callerUnit.source.toUTF8) := rfl
  have called : tree.at? ["p", "b.py"] = some (.file calledUnit.source.toUTF8) := rfl
  have added : addFiles tree ["p"] false [["p", "a.py"], ["p", "b.py"]] .empty =
      (.ok project.modules, []) := by
    simp only [addFiles, caller, called, readUnit_caller, readUnit_called]
    rfl
  simp only [load, files, flat, added]
  rfl

def graph : CallTree := .node run [.node f [.node g []]]

theorem callGraph_run : project.callGraph [] true run = .ok graph := by cbv

def analysis : Analysis :=
  ⟨project, run, [], graph, ⟨⟨"a", none⟩, [⟨"probe1_f", f⟩, ⟨"probe2_g", g⟩], []⟩⟩

theorem ofProject_project : Analysis.ofProject project profile = .ok analysis := by
  have exclusions : profile.excludeList = [] := by cbv
  have entered : project.entry? (some "") "run" = some run := by cbv
  have registry : Registry.ofGraph graph (homeOf run) = analysis.registry := by cbv
  rw [Analysis.ofProject_eq_ok, exclusions]
  exact ⟨run, graph, entered, callGraph_run, by rw [registry]; rfl⟩

theorem ofProfile_world : (Analysis.ofProfile world profile).1 = .ok analysis := by
  have packages : profile.packageList = [] := by cbv
  have resolved : world.resolve? (.ofText (Path.absolute ["p"]).text) = some (.absolute ["p"]) := by
    cbv
  refine Analysis.ofProfile_eq_ok.mpr ⟨.absolute ["p"], project, rfl, by decide, ?_, ofProject_project⟩
  rw [packages]
  exact Analysis.openAt_eq_ok.mpr ⟨.absolute ["p"], resolved, rfl, load_tree⟩

theorem analysis_agrees_twoModules :
    (Analysis.ofProfile world profile).1 = .ok analysis ∧ profile.recursive = true ∧
      f ∈ analysis.graph.routines ∧
      ∃ caller, project.caller? f = some caller ∧
        (calls caller.definition.body).filterMap
          (timingOf analysis analysis.registry caller).probeOf = ["probe2_g"] := by
  have routines : analysis.graph.routines = [run, f, g] := by cbv
  have inGraph : f ∈ analysis.graph.routines := by simp [routines]
  obtain ⟨caller, found, -, agrees, -⟩ := analysis_agrees ofProfile_world [] inGraph
  obtain ⟨node, expanded, -, -, probes⟩ := agrees rfl
  refine ⟨ofProfile_world, rfl, inGraph, caller, found, ?_⟩
  have first : analysis.graph.expansion? f = some (.node f [.node g []]) := by cbv
  obtain rfl : CallTree.node f [.node g []] = node := Option.some.inj (first.symm.trans expanded)
  have child : Registry.probeName? { analysis.registry with loops := [] } g = some "probe2_g" := by cbv
  apply List.map_injective_iff.mpr (Option.some_injective String)
  refine probes.trans ?_
  rw [CallTree.children, List.map_singleton]
  exact congrArg (fun name => [name]) child

end TwoModules

end Weaving

end ProbeWeave
