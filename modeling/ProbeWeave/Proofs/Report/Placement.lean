import Mathlib.Data.List.Perm.Basic
import ProbeWeave.Proofs.Graph.Occurrence
import ProbeWeave.Proofs.Probe.Names
import ProbeWeave.Report.Build

/-! # Where the lines of a report stand

A report goes through the graph in the order in which the registry numbered its routines, so it has a
line for each probe. The line of a routine stands at the first occurrence of the routine, and its
loops follow the lines of all routines that occur first below it.
-/

namespace ProbeWeave.Probe.Registry

open Graph

/-- The fields with the routines whose probes they are. -/
def owners (registry : Registry) : List (String × Routine) :=
  registry.probes.map (fun p => (p.name, p.routine)) ++
    registry.loops.map fun p => (p.name, p.routine)

theorem map_fst_owners (registry : Registry) : registry.owners.map Prod.fst = registry.fieldNames := by
  rw [owners, List.map_append, List.map_map, List.map_map]
  rfl

theorem map_routine_ofGraph (root : CallTree) (home : Home) :
    (ofGraph root home).probes.map RoutineProbe.routine =
      CallTree.distinct (CallTree.occurrences root.children) :=
  map_routine_mapIdx _

theorem probeFor?_of_nodup {registry : Registry}
    (distinct : (registry.probes.map RoutineProbe.routine).Nodup) {p : RoutineProbe}
    (member : p ∈ registry.probes) : registry.probeFor? p.routine = some p := by
  obtain ⟨front, back, split⟩ := List.append_of_mem member
  rw [split, List.map_append, List.map_cons] at distinct
  have others := (List.nodup_append.mp distinct).2.2
  refine List.find?_eq_some_iff_append.mpr ⟨beq_self_eq_true _, front, back, split, fun q earlier => ?_⟩
  have apart := others q.routine (List.mem_map_of_mem earlier) p.routine List.mem_cons_self
  simpa using apart

end ProbeWeave.Probe.Registry

namespace ProbeWeave.Report.Outfit

open Graph Probe CallTree

variable (o : Outfit)

/-! ### What is known behind some nodes -/

mutual

theorem known_linesFrom (seen : List Routine) (depth : Nat) :
    ∀ t : CallTree, (o.linesFrom seen depth t).2 = knownBehind seen (depths depth t)
  | .node routine children => by
    rw [linesFrom, depths]
    split
    · rename_i old
      rw [known_linesAll, knownBehind_of_known (by simpa using old)]
    · rename_i new
      rw [knownBehind_of_new (by simpa using new)]
      exact known_linesAll (routine :: seen) (depth + 1) children

theorem known_linesAll (seen : List Routine) (depth : Nat) :
    ∀ ts : List CallTree, (o.linesAll seen depth ts).2 = knownBehind seen (depthsAll depth ts)
  | [] => by rw [linesAll, depthsAll]; rfl
  | t :: ts => by
    rw [linesAll, depthsAll, knownBehind_append, ← known_linesFrom seen depth t]
    exact known_linesAll _ depth ts

end

/-! ### The lines of each kind -/

/-- Whether a line is of a kind. -/
def isOf (kind : LineKind) (line : Line) : Bool :=
  line.kind == kind

theorem filter_methodLine (r : Routine) (depth : Nat) :
    (o.methodLine r depth).filter (isOf .method) = o.methodLine r depth ∧
      (o.methodLine r depth).filter (isOf .loop) = [] := by
  unfold methodLine
  split
  · split <;> exact ⟨rfl, rfl⟩
  · exact ⟨rfl, rfl⟩

theorem filter_loopLines (r : Routine) (depth : Nat) :
    (o.loopLines r depth).filter (isOf .method) = [] ∧
      (o.loopLines r depth).filter (isOf .loop) = o.loopLines r depth := by
  rw [loopLines, List.filter_map, List.filter_map]
  exact ⟨by simp [isOf, Function.comp_def], by simp [isOf, Function.comp_def]⟩

mutual

theorem methods_linesFrom (seen : List Routine) (depth : Nat) :
    ∀ t : CallTree, (o.linesFrom seen depth t).1.filter (isOf .method) =
      (fresh seen (depths depth t)).flatMap fun x => o.methodLine x.1 x.2
  | .node routine children => by
    rw [linesFrom, depths]
    split
    · rename_i old
      rw [methods_linesAll, fresh_of_known (by simpa using old)]
    · rename_i new
      rw [fresh_of_new (by simpa using new), List.flatMap_cons, ← methods_linesAll]
      simp only [List.filter_append, filter_methodLine, filter_loopLines, List.append_nil]

/-- There is a line for the first occurrence of each routine, in their order. -/
theorem methods_linesAll (seen : List Routine) (depth : Nat) :
    ∀ ts : List CallTree, (o.linesAll seen depth ts).1.filter (isOf .method) =
      (fresh seen (depthsAll depth ts)).flatMap fun x => o.methodLine x.1 x.2
  | [] => by rw [linesAll, depthsAll]; rfl
  | t :: ts => by
    rw [linesAll, depthsAll, fresh_append, List.flatMap_append, ← known_linesFrom o seen depth t,
      ← methods_linesAll, ← methods_linesFrom, ← List.filter_append]

end

mutual

theorem loops_linesFrom (seen : List Routine) (depth : Nat) :
    ∀ t : CallTree, ((o.linesFrom seen depth t).1.filter (isOf .loop)).Perm
      ((fresh seen (depths depth t)).flatMap fun x => o.loopLines x.1 (x.2 + 1))
  | .node routine children => by
    rw [linesFrom, depths]
    split
    · rename_i old
      rw [fresh_of_known (by simpa using old)]
      exact loops_linesAll seen (depth + 1) children
    · rename_i new
      rw [fresh_of_new (by simpa using new), List.flatMap_cons]
      simp only [List.filter_append, filter_methodLine, filter_loopLines, List.nil_append]
      exact (List.perm_append_comm).trans
        ((loops_linesAll (routine :: seen) (depth + 1) children).append_left _)

/-- The first occurrence of each routine brings the lines of its loops. -/
theorem loops_linesAll (seen : List Routine) (depth : Nat) :
    ∀ ts : List CallTree, ((o.linesAll seen depth ts).1.filter (isOf .loop)).Perm
      ((fresh seen (depthsAll depth ts)).flatMap fun x => o.loopLines x.1 (x.2 + 1))
  | [] => by
    rw [linesAll, depthsAll]
    exact .refl _
  | t :: ts => by
    rw [linesAll, depthsAll, fresh_append, List.flatMap_append, ← known_linesFrom o seen depth t]
    dsimp only
    rw [List.filter_append]
    exact (loops_linesFrom seen depth t).append (loops_linesAll _ depth ts)

end

/-! ### Whose lines they are -/

/-- Whether a line reads a probe of a routine. -/
def Shows (r : Routine) (line : Line) : Prop :=
  ∃ name, (name, r) ∈ o.registry.owners ∧ line.probe = o.probeRef name

theorem shows_methodLine {r : Routine} {depth : Nat} {line : Line} (member : line ∈ o.methodLine r depth) :
    o.Shows r line := by
  unfold methodLine at member
  split at member
  · rename_i p found
    split at member
    · cases member
    · obtain rfl := List.mem_singleton.mp member
      have own : p.routine = r := by simpa using List.find?_some found
      refine ⟨p.name, List.mem_append_left _ (List.mem_map.mpr ⟨p, ?_, by rw [own]⟩), rfl⟩
      exact List.mem_of_find?_eq_some found
  · cases member

variable {o}

theorem shows_loopLines (kept : o.loops ⊆ o.registry.loops) {r : Routine} {depth : Nat} {line : Line}
    (member : line ∈ o.loopLines r depth) : o.Shows r line := by
  obtain ⟨p, shown, rfl⟩ := List.mem_map.mp member
  obtain ⟨inLoops, own⟩ := List.mem_filter.mp shown
  rw [beq_iff_eq] at own
  exact ⟨p.name, List.mem_append_right _ (List.mem_map.mpr ⟨p, kept inLoops, by rw [own]⟩), rfl⟩

mutual

theorem shows_linesFrom (kept : o.loops ⊆ o.registry.loops) (seen : List Routine) (depth : Nat) :
    ∀ t : CallTree, ∀ line ∈ (o.linesFrom seen depth t).1,
      ∃ r ∈ occurrences [t], r ∉ seen ∧ o.Shows r line
  | .node routine children => by
    intro line member
    rw [occurrences_node]
    rw [linesFrom] at member
    split at member
    · obtain ⟨r, occurs, new, shows⟩ := shows_linesAll kept seen (depth + 1) children line member
      exact ⟨r, List.mem_cons_of_mem _ occurs, new, shows⟩
    · rename_i new
      have unseen : routine ∉ seen := by simpa using new
      simp only [List.mem_append] at member
      rcases member with (own | below) | loop
      · exact ⟨routine, List.mem_cons_self, unseen, o.shows_methodLine own⟩
      · obtain ⟨r, occurs, new, shows⟩ :=
          shows_linesAll kept (routine :: seen) (depth + 1) children line below
        exact ⟨r, List.mem_cons_of_mem _ occurs, fun old => new (List.mem_cons_of_mem _ old), shows⟩
      · exact ⟨routine, List.mem_cons_self, unseen, shows_loopLines kept loop⟩

/-- Every line shows a routine that occurs among the nodes and is not known before them. -/
theorem shows_linesAll (kept : o.loops ⊆ o.registry.loops) (seen : List Routine) (depth : Nat) :
    ∀ ts : List CallTree, ∀ line ∈ (o.linesAll seen depth ts).1,
      ∃ r ∈ occurrences ts, r ∉ seen ∧ o.Shows r line
  | [] => by
    intro line member
    rw [linesAll] at member
    cases member
  | t :: ts => by
    intro line member
    rw [occurrences_cons]
    rw [linesAll] at member
    rcases List.mem_append.mp member with first | others
    · obtain ⟨r, occurs, new, shows⟩ := shows_linesFrom kept seen depth t line first
      exact ⟨r, List.mem_append_left _ occurs, new, shows⟩
    · obtain ⟨r, occurs, new, shows⟩ := shows_linesAll kept _ depth ts line others
      refine ⟨r, List.mem_append_right _ occurs, fun old => new ?_, shows⟩
      rw [known_linesFrom]
      exact mem_knownBehind.mpr (.inl old)

end

/-! ### The lines below a node -/

theorem linesAll_append (seen : List Routine) (depth : Nat) (ts us : List CallTree) :
    (o.linesAll seen depth (ts ++ us)).1 = (o.linesAll seen depth ts).1 ++
      (o.linesAll (knownBehind seen (depthsAll depth ts)) depth us).1 := by
  rw [← known_linesAll o]
  induction ts generalizing seen with
  | nil => rw [List.nil_append, linesAll]; rfl
  | cons t rest ih =>
    rw [List.cons_append, linesAll, linesAll]
    dsimp only
    rw [ih, List.append_assoc]

theorem linesFrom_of_known {seen : List Routine} {t : CallTree} (old : t.routine ∈ seen) (depth : Nat) :
    (o.linesFrom seen depth t).1 = (o.linesAll seen (depth + 1) t.children).1 := by
  obtain ⟨r, children⟩ := t
  replace old : r ∈ seen := old
  rw [linesFrom, if_pos (by simpa using old)]
  rfl

theorem linesFrom_of_new {seen : List Routine} {t : CallTree} (new : t.routine ∉ seen) (depth : Nat) :
    (o.linesFrom seen depth t).1 = o.methodLine t.routine depth ++
      (o.linesAll (t.routine :: seen) (depth + 1) t.children).1 ++
      o.loopLines t.routine (depth + 1) := by
  obtain ⟨r, children⟩ := t
  replace new : r ∉ seen := new
  rw [linesFrom, if_neg (by simpa using new)]
  rfl

/-- Whether a routine occurs first below a node, given the routines that are known in front of it. -/
def FirstBelow (known : List Routine) (node : CallTree) (r : Routine) : Prop :=
  r ∈ occurrences node.children ∧ r ∉ known ∧ r ≠ node.routine

/-- Whether a line has no part in what is at and below a node. -/
def Elsewhere (o : Outfit) (known : List Routine) (node : CallTree) (line : Line) : Prop :=
  ∃ r, r ≠ node.routine ∧ ¬FirstBelow known node r ∧ o.Shows r line

/-- The lines around the first occurrence of a routine: its own, those of the routines that occur
first below it, and those of its loops. -/
structure Surrounds (o : Outfit) (known : List Routine) (depth : Nat) (node : CallTree)
    (own above inner below lines : List Line) : Prop where
  split : lines = above ++ (own ++ inner ++ o.loopLines node.routine (depth + 1)) ++ below
  inside : ∀ line ∈ inner, ∃ r, FirstBelow known node r ∧ o.Shows r line
  above : ∀ line ∈ above, o.Elsewhere known node line
  below : ∀ line ∈ below, o.Elsewhere known node line

/-- A line of a routine that is known in front of a node stands elsewhere. -/
theorem elsewhere_of_shows {known : List Routine} {node : CallTree} {r : Routine} {line : Line}
    (old : r ∈ known) (first : node.routine ∉ known) (shows : o.Shows r line) :
    o.Elsewhere known node line :=
  ⟨r, fun same => first (same ▸ old), fun below => below.2.1 old, shows⟩

/-- More lines around. -/
theorem Surrounds.widen {known : List Routine} {depth : Nat} {node : CallTree}
    {own above inner below lines front back : List Line}
    (surrounds : Surrounds o known depth node own above inner below lines)
    (before : ∀ line ∈ front, o.Elsewhere known node line)
    (behind : ∀ line ∈ back, o.Elsewhere known node line) :
    Surrounds o known depth node own (front ++ above) inner (below ++ back) (front ++ lines ++ back) where
  split := by
    rw [surrounds.split]
    simp only [List.append_assoc]
  inside := surrounds.inside
  above := List.forall_mem_append.mpr ⟨before, surrounds.above⟩
  below := List.forall_mem_append.mpr ⟨surrounds.below, behind⟩

section Around

variable (kept : o.loops ⊆ o.registry.loops) {known seen : List Routine} {depth : Nat}
  {node : CallTree}
include kept

/-- Lines of routines that are known in front of a node stand elsewhere. -/
theorem elsewhere_of_known {ts : List CallTree} (inKnown : occurrences ts ⊆ known)
    (first : node.routine ∉ known) :
    ∀ line ∈ (o.linesAll seen depth ts).1, o.Elsewhere known node line := by
  intro line member
  obtain ⟨r, occurs, -, shows⟩ := shows_linesAll kept seen depth ts line member
  exact elsewhere_of_shows (inKnown occurs) first shows

/-- Lines behind everything below a node stand elsewhere. -/
theorem elsewhere_of_behind (ts : List CallTree) (all : occurrences [node] ⊆ seen) :
    ∀ line ∈ (o.linesAll seen depth ts).1, o.Elsewhere known node line := by
  intro line member
  obtain ⟨r, -, new, shows⟩ := shows_linesAll kept seen depth ts line member
  rw [occurrences_eq] at all
  refine ⟨r, fun same => new (all ?_), fun below => new (all ?_), shows⟩
  · rw [same]
    exact List.mem_cons_self
  · exact List.mem_cons_of_mem _ below.1

/-- A routine that occurs first at the root of a tree, between others. -/
theorem surrounds_root {left right : List CallTree}
    (same : ∀ r, r ∈ known ↔ r ∈ seen ∨ r ∈ occurrences left) (first : node.routine ∉ known) :
    ∃ above inner behind, Surrounds o known depth node (o.methodLine node.routine depth) above inner
      behind (o.linesAll seen depth (left ++ node :: right)).1 := by
  have behind : ∀ r, r ∈ knownBehind seen (depthsAll depth left) ↔ r ∈ known := fun r => by
    rw [mem_knownBehind, map_fst_depthsAll, same]
  have unseen := first ∘ (behind node.routine).mp
  have early : occurrences left ⊆ known := fun r occurs => (same r).mpr (.inr occurs)
  have all : occurrences [node] ⊆
      knownBehind (knownBehind seen (depthsAll depth left)) (depths depth node) := fun r occurs =>
    mem_knownBehind.mpr (.inr (by rwa [map_fst_depths]))
  refine ⟨(o.linesAll seen depth left).1,
    (o.linesAll (node.routine :: knownBehind seen (depthsAll depth left)) (depth + 1) node.children).1,
    (o.linesAll _ depth right).1, ?_, ?_, elsewhere_of_known kept early first,
    elsewhere_of_behind kept right all⟩
  · rw [linesAll_append, linesAll]
    dsimp only
    rw [linesFrom_of_new unseen, known_linesFrom, ← List.append_assoc]
  · intro line member
    obtain ⟨r, occurs, new, shows⟩ := shows_linesAll kept _ _ _ line member
    rw [List.mem_cons, not_or, behind] at new
    exact ⟨r, ⟨occurs, new.2, new.1⟩, shows⟩

/-- The lines of a tree around a first occurrence below its root: those of its children, and its own
around them unless it is known. -/
theorem surrounds_linesFrom {t : CallTree} {before : List Routine} {own : List Line} {below : Nat}
    (same : ∀ r, r ∈ known ↔ r ∈ seen ∨ r = t.routine ∨ r ∈ before) (first : node.routine ∉ known)
    (deeper : ∀ passed, (∀ r, r ∈ known ↔ r ∈ passed ∨ r ∈ before) →
      ∃ above inner behind, Surrounds o known below node own above inner behind
        (o.linesAll passed (depth + 1) t.children).1) :
    ∃ above inner behind, Surrounds o known below node own above inner behind
      (o.linesFrom seen depth t).1 := by
  by_cases old : t.routine ∈ seen
  · rw [linesFrom_of_known old]
    refine deeper seen fun r => (same r).trans (or_congr_right' fun new => ?_)
    exact or_iff_right fun root => new (root ▸ old)
  · obtain ⟨above, inner, behind, surrounds⟩ := deeper (t.routine :: seen) fun r => by
      rw [same, List.mem_cons, or_left_comm, or_assoc]
    have root : t.routine ∈ known := (same _).mpr (.inr (.inl rfl))
    rw [linesFrom_of_new old]
    exact ⟨_, _, _, surrounds.widen
      (fun line member => elsewhere_of_shows root first (o.shows_methodLine member))
      (fun line member => elsewhere_of_shows root first (shows_loopLines kept member))⟩

/-- The lines of some nodes around a first occurrence among them. -/
theorem surrounds_linesAll {ts : List CallTree} {before : List Routine} {below : Nat}
    (stands : Stands ts before below node) (same : ∀ r, r ∈ known ↔ r ∈ seen ∨ r ∈ before)
    (first : node.routine ∉ known) :
    ∃ above inner behind, Surrounds o known (depth + below) node
      (o.methodLine node.routine (depth + below)) above inner behind (o.linesAll seen depth ts).1 := by
  induction stands generalizing seen depth with
  | here => exact surrounds_root kept same first
  | @under left right t before below node inner ih =>
    have early : occurrences left ⊆ known := fun r occurs =>
      (same r).mpr (.inr (List.mem_append_left _ occurs))
    have later : occurrences [node] ⊆
        knownBehind (knownBehind seen (depthsAll depth left)) (depths depth t) := fun r occurs => by
      rw [mem_knownBehind, map_fst_depths, occurrences_eq t]
      exact .inr (List.mem_cons_of_mem _ (inner.subset occurs))
    have split : ∀ r, r ∈ known ↔
        r ∈ knownBehind seen (depthsAll depth left) ∨ r = t.routine ∨ r ∈ before := fun r => by
      rw [same, mem_knownBehind, map_fst_depthsAll, List.mem_append, List.mem_cons, or_assoc]
    have deep : depth + (below + 1) = depth + 1 + below := by omega
    have around : ∃ above inner behind, Surrounds o known (depth + (below + 1)) node
        (o.methodLine node.routine (depth + (below + 1))) above inner behind
        (o.linesFrom (knownBehind seen (depthsAll depth left)) depth t).1 := by
      rw [deep]
      exact surrounds_linesFrom kept split first fun passed known => ih known first
    obtain ⟨above, inside, behind, surrounds⟩ := around
    rw [linesAll_append, linesAll]
    dsimp only
    rw [known_linesFrom, ← List.append_assoc]
    exact ⟨_, _, _, surrounds.widen (elsewhere_of_known kept early first)
      (elsewhere_of_behind kept right later)⟩

end Around

end ProbeWeave.Report.Outfit
