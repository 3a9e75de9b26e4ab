import ProbeWeave.Proofs.Report.Placement

/-! # A report shows the probes of its registry

The registry of a graph has a probe for each routine that is called, and the report of the graph
has a line for each of them but the entry's and the excluded ones. Numbering and report follow two
walks through the graph, which meet the routines in the same order. Every loop probe has a line, too,
behind the lines of everything that its routine calls first.
-/

namespace ProbeWeave.Report

open Graph Probe CallTree

/-- Values sorted by a key are a permutation of the values. -/
theorem flatMap_filter_perm {α β : Type} [DecidableEq β] (key : α → β) {keys : List β}
    (distinct : keys.Nodup) {xs : List α} (covered : ∀ x ∈ xs, key x ∈ keys) :
    (keys.flatMap fun k => xs.filter (key · == k)).Perm xs := by
  induction keys generalizing xs with
  | nil =>
    have none : xs = [] := List.eq_nil_iff_forall_not_mem.mpr fun x member => by
      simpa using covered x member
    rw [none]
    exact .refl _
  | cons k rest ih =>
    obtain ⟨new, distinct⟩ := List.nodup_cons.mp distinct
    have others : ∀ x ∈ xs.filter (!key · == k), key x ∈ rest := fun x member => by
      obtain ⟨member, other⟩ := List.mem_filter.mp member
      exact (List.mem_cons.mp (covered x member)).resolve_left (by simpa using other)
    have same : (rest.flatMap fun s => xs.filter (key · == s)) =
        rest.flatMap fun s => (xs.filter (!key · == k)).filter (key · == s) := by
      refine List.flatMap_congr fun s member => ?_
      rw [List.filter_filter]
      refine List.filter_congr fun x _ => ?_
      by_cases found : key x = s
      · have apart : s ≠ k := fun same => new (same ▸ member)
        simp [found, apart]
      · simp [found]
    rw [List.flatMap_cons, same]
    exact ((ih distinct others).append_left _).trans (List.filter_append_perm _ xs)

/-- Where a line stands and what it shows. -/
def Line.view (line : Line) : Option Nat × String × String :=
  (some line.depth, line.label, line.probe)

namespace Outfit

variable (o : Outfit)

theorem probeRef_injective {name other : String} (same : o.probeRef name = o.probeRef other) :
    name = other := by
  unfold probeRef Home.reference at same
  rw [if_pos (beq_self_eq_true _), List.nil_append] at same
  cases owner : o.registry.home.owner with
  | none => simpa [owner] using same
  | some c => simpa [owner, String.intercalate_cons_cons] using same

/-- A line shows one routine only. -/
theorem shows_unique (distinct : o.registry.fieldNames.Nodup) {line : Line} {r s : Routine}
    (first : o.Shows r line) (second : o.Shows s line) : r = s := by
  obtain ⟨name, owned, leads⟩ := first
  obtain ⟨other, owns, same⟩ := second
  obtain rfl := o.probeRef_injective (leads.symm.trans same)
  rw [← Registry.map_fst_owners] at distinct
  exact congrArg Prod.snd (List.inj_on_of_nodup_map distinct owned owns rfl)

/-! ### The lines of routines -/

theorem view_methodLine {p : RoutineProbe} (found : o.registry.probeFor? p.routine = some p)
    (depth : Nat) : (o.methodLine p.routine depth).map Line.view =
      if p.routine.matchesAny o.exclusions then []
      else [(some depth, p.routine.qualifiedName, o.probeRef p.name)] := by
  rw [methodLine, found]
  dsimp only
  split <;> rfl

/-- The lines of routines that are numbered alike. -/
theorem view_methodLines (probes : List RoutineProbe) {xs : List (Routine × Nat)}
    (aligned : xs.map Prod.fst = probes.map RoutineProbe.routine)
    (found : ∀ p ∈ probes, o.registry.probeFor? p.routine = some p) (depthOf : Routine → Option Nat)
    (first : ∀ x ∈ xs, depthOf x.1 = some x.2) :
    (xs.flatMap fun x => o.methodLine x.1 x.2).map Line.view =
      (probes.filter fun p => !p.routine.matchesAny o.exclusions).map fun p =>
        (depthOf p.routine, p.routine.qualifiedName, o.probeRef p.name) := by
  induction probes generalizing xs with
  | nil =>
    rw [List.map_nil, List.map_eq_nil_iff] at aligned
    rw [aligned]
    rfl
  | cons p rest ih =>
    obtain ⟨x, others, rfl, own, aligned⟩ := List.map_eq_cons_iff.mp aligned
    have depth : depthOf p.routine = some x.2 := own ▸ first x List.mem_cons_self
    rw [List.flatMap_cons, List.map_append, own, o.view_methodLine (found p List.mem_cons_self),
      ih aligned (fun q member => found q (List.mem_cons_of_mem _ member)) fun y member =>
        first y (List.mem_cons_of_mem _ member)]
    by_cases excluded : p.routine.matchesAny o.exclusions = true
    · simp [excluded]
    · simp [excluded, depth]

/-! ### The lines of a graph -/

variable (graph : CallTree)

/-- The first occurrences in a graph are those below its root, the root's own in front. -/
theorem fresh_depths : fresh [] (depths 0 graph) =
    (graph.routine, 0) :: fresh [graph.routine] (depthsAll 1 graph.children) := by
  obtain ⟨r, children⟩ := graph
  rw [depths, fresh_of_new List.not_mem_nil]
  rfl

theorem firstDepth?_of_mem_fresh {x : Routine × Nat} (member : x ∈ fresh [] (depths 0 graph)) :
    graph.firstDepth? x.1 = some x.2 :=
  lookup_of_mem_fresh member

/-- The routines that occur first below the root are those with a probe, but the root's own. -/
theorem map_fst_fresh_children {registry : Registry}
    (routines : registry.probes.map RoutineProbe.routine = distinct (occurrences graph.children)) :
    (fresh [graph.routine] (depthsAll 1 graph.children)).map Prod.fst =
      (registry.probes.filter (·.routine != graph.routine)).map RoutineProbe.routine := by
  have only : (fun r => decide (r ∉ [graph.routine])) = (· != graph.routine) := by
    funext r
    by_cases same : r = graph.routine <;> simp [same]
  rw [map_fst_fresh, map_fst_depthsAll, ← routines, List.filter_map, only]
  rfl

theorem methods_lines (routines : o.registry.probes.map RoutineProbe.routine =
    distinct (occurrences graph.children)) :
    ((o.lines graph).filter (isOf .method)).map Line.view =
      (o.registry.probes.filter fun p =>
        p.routine != graph.routine && !p.routine.matchesAny o.exclusions).map fun p =>
          (graph.firstDepth? p.routine, p.routine.qualifiedName, o.probeRef p.name) := by
  have found : ∀ p ∈ o.registry.probes.filter (·.routine != graph.routine),
      o.registry.probeFor? p.routine = some p := fun p member =>
    Registry.probeFor?_of_nodup (routines ▸ nodup_distinct _) (List.mem_filter.mp member).1
  have first : ∀ x ∈ fresh [graph.routine] (depthsAll 1 graph.children),
      graph.firstDepth? x.1 = some x.2 := fun x member =>
    firstDepth?_of_mem_fresh graph (by
      rw [fresh_depths]
      exact List.mem_cons_of_mem _ member)
  rw [lines, List.filter_append, (o.filter_loopLines _ _).1, List.append_nil, methods_linesAll,
    o.view_methodLines _ (map_fst_fresh_children graph routines) found graph.firstDepth? first,
    List.filter_filter]
  simp only [Bool.and_comm]

theorem loops_lines (known : ∀ p ∈ o.loops, p.routine ∈ graph.routines) :
    (((o.lines graph).filter (isOf .loop)).map Line.view).Perm
      (o.loops.map fun p =>
        ((graph.firstDepth? p.routine).map (· + 1), p.name, o.probeRef p.name)) := by
  have order : ((o.lines graph).filter (isOf .loop)).Perm
      ((fresh [] (depths 0 graph)).flatMap fun x => o.loopLines x.1 (x.2 + 1)) := by
    rw [lines, List.filter_append, (o.filter_loopLines _ _).2, fresh_depths, List.flatMap_cons]
    exact ((o.loops_linesAll [graph.routine] 1 graph.children).append_right _).trans
      List.perm_append_comm
  have views : ((fresh [] (depths 0 graph)).flatMap fun x => o.loopLines x.1 (x.2 + 1)).map
      Line.view = (((fresh [] (depths 0 graph)).map Prod.fst).flatMap fun r =>
        o.loops.filter (·.routine == r)).map fun p =>
          ((graph.firstDepth? p.routine).map (· + 1), p.name, o.probeRef p.name) := by
    rw [List.flatMap_map, List.map_flatMap, List.map_flatMap]
    refine List.flatMap_congr fun x member => ?_
    rw [loopLines, List.map_map]
    refine List.map_congr_left fun p shown => ?_
    have own : p.routine = x.1 := by simpa using (List.mem_filter.mp shown).2
    rw [own, firstDepth?_of_mem_fresh graph member]
    rfl
  have all : ∀ p ∈ o.loops, p.routine ∈ (fresh [] (depths 0 graph)).map Prod.fst := fun p member => by
    rw [map_fst_fresh, map_fst_depths, List.mem_filter, mem_distinct, ← mem_routines]
    exact ⟨known p member, by simp⟩
  refine (order.map Line.view).trans ?_
  rw [views]
  exact (flatMap_filter_perm LoopProbe.routine (nodup_fresh _ _) all).map _

variable {o graph}

/-- A first occurrence in the graph has its lines around it; those of the entry's loops are the
last ones. -/
theorem surrounds_lines (kept : o.loops ⊆ o.registry.loops) {before : List Routine} {depth : Nat}
    {node : CallTree} (stands : Stands [graph] before depth node) (first : node.routine ∉ before) :
    ∃ above inner below, Surrounds o before depth node
      (if node.routine = graph.routine then [] else o.methodLine node.routine depth)
      above inner below (o.lines graph) ∧ (node.routine = graph.routine → below = []) := by
  rcases stands.of_singleton with ⟨rfl, rfl, rfl⟩ | ⟨inside, deep, rfl, rfl, lower⟩
  · refine ⟨[], (o.linesAll [node.routine] 1 node.children).1, [], ⟨?_, ?_, ?_, ?_⟩, fun _ => rfl⟩
    · rw [if_pos rfl, lines]
      simp
    · intro line member
      obtain ⟨r, occurs, new, shows⟩ := shows_linesAll kept _ _ _ line member
      exact ⟨r, ⟨occurs, List.not_mem_nil, by simpa using new⟩, shows⟩
    · exact fun line member => absurd member List.not_mem_nil
    · exact fun line member => absurd member List.not_mem_nil
  · have other : node.routine ≠ graph.routine := fun same => first (same ▸ List.mem_cons_self)
    have around : ∃ above inner below, Surrounds o (graph.routine :: inside) (1 + deep) node
        (o.methodLine node.routine (1 + deep)) above inner below
        (o.linesAll [graph.routine] 1 graph.children).1 :=
      surrounds_linesAll kept lower (fun r => by rw [List.mem_cons, List.mem_singleton]) first
    obtain ⟨above, inner, below, surrounds⟩ := around
    have back : ∀ line ∈ o.loopLines graph.routine 1, o.Elsewhere (graph.routine :: inside) node line :=
      fun line member =>
        elsewhere_of_shows List.mem_cons_self first (shows_loopLines kept member)
    have whole := surrounds.widen (fun line member => absurd member List.not_mem_nil) back
    rw [Nat.add_comm 1 deep, List.nil_append] at whole
    exact ⟨_, _, _, by rwa [if_neg other], fun same => absurd same other⟩

end Outfit

open Outfit in
/-- The report of a graph and the registry of the graph, with any loop probes of its routines, agree.

The registry numbers the routines below the root where a walk with a stack meets them first. The lines
of routines are those of its probes, in its order, without the entry's and the excluded ones; each
stands at the depth at which its routine occurs first. Every loop probe has one line, one level
deeper than that. Around the node where a routine occurs first stand its own line, then exactly the
lines of the routines that occur first below it, and then those of its loops in the order of their
allocation; behind the entry's loops stands nothing. -/
theorem build_covers_registry (patterns : List String) (graph : CallTree) (home : Home)
    (loops : List (Routine × Nat)) (known : ∀ x ∈ loops, x.1 ∈ graph.routines) :
    let registry := (Registry.ofGraph graph home).addLoops loops
    let o : Outfit := ⟨registry, patterns, registry.loops⟩
    let lines := build patterns registry graph
    (registry.probes.map RoutineProbe.routine =
        distinct ((graph.children.flatMap fun child => walkStack [child]).map CallTree.routine) ∧
      registry.loops.map (fun p => (p.routine, p.line)) = loops ∧
      registry.fieldNames.Nodup ∧ ∀ line r s, o.Shows r line → o.Shows s line → r = s) ∧
    (lines.filter (isOf .method)).map Line.view =
      (registry.probes.filter fun p =>
        p.routine != graph.routine && !p.routine.matchesAny patterns).map (fun p =>
          (graph.firstDepth? p.routine, p.routine.qualifiedName, o.probeRef p.name)) ∧
    ((lines.filter (isOf .loop)).map Line.view).Perm
      (registry.loops.map fun p =>
        ((graph.firstDepth? p.routine).map (· + 1), p.name, o.probeRef p.name)) ∧
    (∀ r ∈ graph.routines, ∃ before depth node,
      Stands [graph] before depth node ∧ node.routine = r ∧ r ∉ before) ∧
    ∀ before depth node, Stands [graph] before depth node → node.routine ∉ before →
      graph.firstDepth? node.routine = some depth ∧
      ∃ above inner below, Surrounds o before depth node
        (if node.routine = graph.routine then [] else o.methodLine node.routine depth)
        above inner below lines ∧ (node.routine = graph.routine → below = []) := by
  intro registry o lines
  have probes := ((Registry.ofGraph graph home).addLoops_probes loops).1
  have places := (Registry.ofGraph graph home).map_addLoops loops
  have routines : registry.probes.map RoutineProbe.routine =
      distinct (occurrences graph.children) := by
    rw [probes, Registry.map_routine_ofGraph]
  have distinct : registry.fieldNames.Nodup :=
    ((Registry.ordered_ofGraph graph home).addLoops loops).nodup
  have owned : ∀ p ∈ registry.loops, p.routine ∈ graph.routines := fun p member => by
    have place : (p.routine, p.line) ∈ registry.loops.map fun p => (p.routine, p.line) :=
      List.mem_map_of_mem (f := fun p : LoopProbe => (p.routine, p.line)) member
    rw [places] at place
    exact known _ place
  refine ⟨⟨?_, places, distinct, fun line r s => o.shows_unique distinct⟩,
    o.methods_lines graph routines, o.loops_lines graph owned,
    fun r occurs => exists_stands [graph] (mem_routines.mp occurs), ?_⟩
  · rw [routines, flatMap_walkStack]
    rfl
  · exact fun before depth node stands first =>
      ⟨stands.firstDepth? first, surrounds_lines (List.Subset.refl _) stands first⟩

namespace Recursive

/-- A routine of one module. -/
def routine (name : String) (n : Nat) : Routine :=
  ⟨"m", n, none, name, n⟩

/-- The entry calls `parse`, which calls the entry again and `read`, and then calls `parse` once
more, where `close` is called, too. -/
def graph : CallTree :=
  .node (routine "run" 1)
    [.node (routine "parse" 2) [.node (routine "run" 1) [], .node (routine "read" 3) []],
      .node (routine "parse" 2) [.node (routine "close" 4) []]]

/-- Loops of `parse`, the entry, and `parse`. -/
def loops : List (Routine × Nat) :=
  [(routine "parse" 2, 12), (routine "run" 1, 3), (routine "parse" 2, 14)]

theorem build_covers_recursive_calls :
    (∀ x ∈ loops, x.1 ∈ graph.routines) ∧
      ((build ["m.read"] ((Registry.ofGraph graph ⟨"m", none⟩).addLoops loops) graph).filter
        (Outfit.isOf .method)).map Line.view =
          [(some 1, "parse", "probe1_parse"), (some 2, "close", "probe4_close")] := by
  have known : ∀ x ∈ loops, x.1 ∈ graph.routines := by decide
  exact ⟨known, (build_covers_registry ["m.read"] graph ⟨"m", none⟩ loops known).2.1.trans (by decide)⟩

end Recursive

end ProbeWeave.Report
