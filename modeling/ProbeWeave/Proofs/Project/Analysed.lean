import ProbeWeave.Proofs.Files.Places
import ProbeWeave.Proofs.Graph.Expansion
import ProbeWeave.Proofs.Project.Loaded

/-! # Analysed projects

The entry of a project that was read is one of its routines, and so is every routine of a call
graph. Mapping therefore finds all of them again, each with the definition that it was made from.
-/

set_option linter.dupNamespace false

namespace ProbeWeave

open Syntax Graph Outcome

namespace Graph.ProgramModel

variable {ε : Type} {m : ProgramModel ε} {exclusions : List String} {recursive : Bool}
  {entry r : Routine} {graph : CallTree}

theorem callGraph_root (success : m.callGraph exclusions recursive entry = .ok graph) :
    graph.routine = entry := by
  obtain ⟨rfl, -⟩ := callGraph_eq_ok.mp success
  split
  · exact CallTree.follow_root _ _ _
  · rfl

/-- A graph holds its entry and routines that calls can run. -/
theorem mem_of_callGraph (success : m.callGraph exclusions recursive entry = .ok graph)
    (inGraph : r ∈ graph.routines) : r = entry ∨ r ∈ m.routines := by
  obtain ⟨rfl, -⟩ := callGraph_eq_ok.mp success
  have inside : ∀ x, m.calleesOrNone exclusions x ⊆ entry :: m.routines :=
    calleesOrNone_subset entry
  refine List.mem_cons.mp ?_
  split at inGraph
  · exact CallTree.follow_inside (S := {x | x ∈ entry :: m.routines})
      (fun x _ t called => inside x called) _ _ List.mem_cons_self r
      (CallTree.mem_routines.mp inGraph)
  · rcases mem_routines_direct.mp inGraph with rfl | called
    · exact List.mem_cons_self
    · exact inside _ called

end Graph.ProgramModel

namespace Project

theorem Module.Sound.mem_definitions {m : Module} (sound : m.Sound) {d : Definition}
    (held : d ∈ m.holdings) : d ∈ m.definitions := by
  rw [Module.holdings, List.append_assoc, List.mem_append, List.mem_append, List.mem_flatMap] at held
  rcases held with held | held | ⟨c, inModule, held⟩
  · exact held
  · exact sound.functions d held
  · exact sound.methods c inModule d held

namespace Project

variable {p : Project}

/-- A definition is found at the place that its routine names. -/
theorem definition?_of_mem_holdings (known : Known p.modules) {d : Definition}
    (held : d ∈ p.holdings) :
    ∃ m ∈ p.modules.values, p.modules.get? d.routine.module = some m ∧
      m.definitions[d.routine.ordinal]? = some d := by
  obtain ⟨m, member, inModule⟩ := List.mem_flatMap.mp held
  have sound := known.sound_of_mem member
  obtain ⟨i, found⟩ := List.mem_iff_getElem?.mp (sound.mem_definitions inModule)
  obtain ⟨ofModule, rfl⟩ := sound.numbered i d found
  exact ⟨m, member, ofModule ▸ known.get? member, found⟩

/-- A routine of a project is a caller with its own definition. -/
theorem caller?_of_mem_routines (known : Known p.modules) {r : Routine} (member : r ∈ p.routines) :
    ∃ caller, p.caller? r = some caller ∧ caller.definition.routine = r := by
  obtain ⟨d, held, rfl⟩ := List.mem_map.mp member
  obtain ⟨m, -, inProject, found⟩ := definition?_of_mem_holdings known held
  have definition : p.definition? d.routine = some d := by simp [definition?, inProject, found]
  exact ⟨_, by simp [caller?, inProject, definition]; rfl, rfl⟩

theorem mem_values_of_mem_sortedModules {m : Module} (member : m ∈ p.sortedModules) :
    m ∈ p.modules.values := by
  obtain ⟨name, -, found⟩ := List.mem_filterMap.mp member
  exact Dictionary.mem_values_of_get? found

/-- A module that is known by a name is among the sorted ones. -/
theorem mem_sortedModules_of_get? {name : String} {m : Module} (held : p.modules.get? name = some m) :
    m ∈ p.sortedModules := by
  have key : name ∈ p.modules.keys := Dictionary.mem_keys.mpr (by rw [held]; rfl)
  exact List.mem_filterMap.mpr ⟨name, List.mem_mergeSort.mpr key, held⟩

/-- Sorted modules stand in the order of their names. -/
theorem names_sortedModules (known : Known p.modules) :
    p.sortedModules.map (·.unit.name) = p.sortedNames := by
  have each : ∀ name ∈ p.sortedNames,
      (p.modules.get? name).map (·.unit.name) = some name := by
    intro name member
    obtain ⟨m, found⟩ := Option.isSome_iff_exists.mp
      (Dictionary.mem_keys.mp (Files.mem_sortNames.mp member))
    rw [found, Option.map_some, known.named name m (known.distinct.get?_eq_some.mp found)]
  rw [sortedModules, List.map_filterMap, List.filterMap_congr each, List.filterMap_some]

theorem mem_routines_of_mem_holdings {d : Definition} (held : d ∈ p.holdings) :
    d.routine ∈ p.routines :=
  List.mem_map_of_mem held

theorem mem_routines_of_anyFunction? {name : String} {r : Routine}
    (found : p.anyFunction? name = some r) : r ∈ p.routines := by
  obtain ⟨m, sorted, found⟩ := List.exists_of_findSome?_eq_some found
  obtain ⟨d, inModule, rfl⟩ := Option.map_eq_some_iff.mp found
  exact mem_routines_of_mem_holdings
    (mem_holdings_of_function (mem_values_of_mem_sortedModules sorted) inModule)

theorem mem_routines_of_anyMethod? {type name : String} {r : Routine}
    (found : p.anyMethod? type name = some r) : r ∈ p.routines := by
  unfold anyMethod? firstOf at found
  generalize qualifier type = qualified at found
  obtain ⟨module, cls⟩ := qualified
  obtain ⟨m, sorted, inModule⟩ := List.exists_of_findSome?_eq_some found
  have held := mem_values_of_mem_sortedModules sorted
  split at inModule
  · cases inModule
  · obtain ⟨c, member, inClass⟩ := List.exists_of_findSome?_eq_some inModule
    split at inClass
    · obtain ⟨d, method, rfl⟩ := Option.map_eq_some_iff.mp inClass
      exact mem_routines_of_mem_holdings (mem_holdings_of_method ⟨m, held, member⟩ method)
    · cases inClass

theorem mem_routines_of_entry? {type : Option String} {name : String} {r : Routine}
    (found : p.entry? type name = some r) : r ∈ p.routines := by
  unfold entry? at found
  dsimp only at found
  split at found
  · cases found
  · split at found
    · exact mem_routines_of_anyFunction? found
    · split at found
      · rename_i d inModule
        obtain ⟨m, inProject, inModule⟩ := Option.bind_eq_some_iff.mp inModule
        cases found
        exact mem_routines_of_mem_holdings
          (mem_holdings_of_function (Dictionary.mem_values_of_get? inProject) inModule)
      · exact mem_routines_of_anyMethod? found

variable {r : Routine} {caller : Caller}

theorem model_body (found : p.caller? r = some caller) :
    p.model.body r = caller.definition.body := by
  simp [model, found]

theorem model_keptTarget? (found : p.caller? r = some caller) (exclusions : List String) :
    p.model.keptTarget? exclusions r = p.keptTarget? exclusions caller := by
  funext call
  simp only [ProgramModel.keptTarget?, keptTarget?, model, target?, found]

end Project

end Project

namespace Analysis

open Project

variable {a : Analysis} {profile : Profile}

theorem ofProject_eq_ok {p : Project.Project} :
    ofProject p profile = .ok a ↔ ∃ entry graph,
      p.entry? (some profile.className) profile.methodName = some entry ∧
      p.callGraph profile.excludeList profile.recursive entry = .ok graph ∧
      a = ⟨p, entry, profile.excludeList, graph, .ofGraph graph (homeOf entry)⟩ := by
  unfold ofProject
  cases p.entry? (some profile.className) profile.methodName with
  | none => simp
  | some entry =>
    cases found : p.callGraph profile.excludeList profile.recursive entry with
    | error fault => simp [found, bind, Except.bind]
    | ok graph => simp [found, bind, Except.bind, pure, Except.pure, eq_comm]

/-- What an analysis that is made from a profile consists of. -/
structure Of (a : Analysis) (profile : Profile) : Prop where
  known : Known a.project.modules
  entry : a.project.entry? (some profile.className) profile.methodName = some a.entry
  exclusions : a.exclusions = profile.excludeList
  graph : a.project.model.callGraph a.exclusions profile.recursive a.entry = .ok a.graph
  registry : a.registry = .ofGraph a.graph (homeOf a.entry)

theorem of_ofProject {p : Project.Project} (known : Known p.modules)
    (analysed : ofProject p profile = .ok a) : a.Of profile := by
  obtain ⟨entry, graph, entered, built, rfl⟩ := ofProject_eq_ok.mp analysed
  exact ⟨known, entered, rfl, built, rfl⟩

/-- An analysis is made if the project can be opened and analysed. -/
theorem ofProfile_eq_ok {w : Files.World} :
    (ofProfile w profile).1 = .ok a ↔ ∃ directory project,
      profile.projectDir = some directory ∧ profile.methodName.isEmpty = false ∧
      (openAt w directory.text profile.packageList profile.ambiguousFallback).1 = .ok project ∧
      ofProject project profile = .ok a := by
  rw [ofProfile]
  cases profile.projectDir with
  | none => simp
  | some directory =>
    cases unnamed : profile.methodName.isEmpty with
    | true => simp
    | false =>
      cases opened : (openAt w directory.text profile.packageList profile.ambiguousFallback).1 <;>
        simp [opened]

/-- A project is opened if its path leads to a directory that can be loaded. -/
theorem openAt_eq_ok {w : Files.World} {shown : String} {packages : List String} {guesses : Bool}
    {p : Project.Project} :
    (openAt w shown packages guesses).1 = .ok p ↔ ∃ root : Files.Path,
      w.resolve? (.ofText shown) = some root ∧ w.tree.at? root.names = some .directory ∧
      (load w.tree root.names packages guesses).1 = .ok p := by
  unfold openAt
  constructor
  · intro opened
    split at opened
    · cases opened
    · rename_i root resolved
      split at opened
      · cases opened
      · cases opened
      · rename_i directory
        exact ⟨root, resolved, directory, mapError_eq_ok.mp opened⟩
  · rintro ⟨root, resolved, directory, loaded⟩
    simp only [resolved, directory]
    exact mapError_eq_ok.mpr loaded

theorem of_ofProfile {w : Files.World} (analysed : (ofProfile w profile).1 = .ok a) :
    a.Of profile := by
  obtain ⟨directory, p, -, -, opened, analysed⟩ := ofProfile_eq_ok.mp analysed
  obtain ⟨root, -, -, loaded⟩ := openAt_eq_ok.mp opened
  exact of_ofProject (load_known _ _ _ _ p loaded) analysed

/-- A routine of the graph is found again as a caller. -/
theorem Of.caller? (of : a.Of profile) {r : Routine} (inGraph : r ∈ a.graph.routines) :
    ∃ caller, a.project.caller? r = some caller ∧ caller.definition.routine = r := by
  refine Project.caller?_of_mem_routines of.known ?_
  rcases ProgramModel.mem_of_callGraph of.graph inGraph with rfl | member
  · exact Project.mem_routines_of_entry? of.entry
  · exact member

end Analysis

end ProbeWeave
