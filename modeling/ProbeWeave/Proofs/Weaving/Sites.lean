import Mathlib
import ProbeWeave.Proofs.Weaving.Planned
import ProbeWeave.Proofs.Weaving.Mapped
import ProbeWeave.Proofs.Weaving.Provenance

/-! # Which statements become sites

Mapping meets the statements of a routine in one order: each one, and then those of its blocks. A
statement becomes a site if its value is a timed call, or if it is a loop with a timed call somewhere in
its blocks; nothing else does. The search for timed calls goes through all expressions of a scope,
and the walk through the statements of the same scope.
-/

namespace ProbeWeave.Syntax

/-- A call at or below a node, in the scope around the node. -/
inductive Node.Holds (call : Call) : Node → Prop
  | here : Holds call (.expr call.toExpr)
  | inside {n c : Node} (inScope : n.opensScope = false) (child : c ∈ n.children)
      (inner : Holds call c) : Holds call n

theorem Node.mem_calls_of_holds {call : Call} {n : Node} (holds : n.Holds call) : call ∈ n.calls := by
  induction holds with
  | here =>
    rw [calls_eq, if_neg (by simp [opensScope, Call.toExpr])]
    exact List.mem_append_left _ List.mem_cons_self
  | inside inScope child _ ih =>
    rw [calls_eq, if_neg (by simp [inScope])]
    exact List.mem_append_right _ (List.mem_flatMap.mpr ⟨_, child, ih⟩)

theorem Node.holds_of_mem_calls {call : Call} (n : Node) (member : call ∈ n.calls) : n.Holds call := by
  rw [calls_eq] at member
  split at member
  · cases member
  · rename_i inScope
    rcases List.mem_append.mp member with own | below
    · cases n with
      | expr e =>
        cases e <;> simp only [asCall?, Expr.asCall?, Option.toList_some, Option.toList_none,
          List.mem_singleton, List.not_mem_nil] at own
        subst own
        exact .here
      | _ => cases own
    · obtain ⟨c, child, member⟩ := List.mem_flatMap.mp below
      exact .inside (by simpa using inScope) child (holds_of_mem_calls c member)
termination_by sizeOf n
decreasing_by exact sizeOf_lt_of_mem_children ‹_›

/-- The search for calls finds those of the scope. -/
theorem mem_calls {call : Call} {body : List Stmt} :
    call ∈ calls body ↔ ∃ s ∈ body, (Node.stmt s).Holds call := by
  rw [calls, List.mem_flatMap]
  exact exists_congr fun s => and_congr_right fun _ =>
    ⟨Node.holds_of_mem_calls _, Node.mem_calls_of_holds⟩

theorem Stmt.Within.exists_singleton {t : Stmt} {b : List Stmt} (within : t.Within b) :
    ∃ s ∈ b, t.Within [s] := by
  cases within with
  | here member => exact ⟨t, member, .here List.mem_cons_self⟩
  | inside member block within => exact ⟨_, member, .inside List.mem_cons_self block within⟩

namespace Stmt

/-- A statement and those of its blocks, in the order in which mapping meets them. -/
def walk (s : Stmt) : List Stmt :=
  s :: s.blocks.attach.flatMap fun ⟨b, _⟩ => b.attach.flatMap fun ⟨x, _⟩ => walk x
termination_by sizeOf s
decreasing_by
  have := sizeOf_lt_of_mem_blocks ‹_›
  have := List.sizeOf_lt_of_mem ‹x ∈ b›
  omega

theorem walk_eq (s : Stmt) : s.walk = s :: s.blocks.flatMap fun b => b.flatMap walk := by
  rw [walk]
  simp [List.flatMap_def]

/-- The walk meets the statements of a block and of the blocks within. -/
theorem mem_walk {t : Stmt} (s : Stmt) : t ∈ s.walk ↔ t.Within [s] := by
  induction s using block_induction with
  | step s blocks =>
    rw [walk_eq, List.mem_cons, List.mem_flatMap]
    constructor
    · rintro (rfl | ⟨b, block, member⟩)
      · exact .here List.mem_cons_self
      · obtain ⟨x, inBlock, member⟩ := List.mem_flatMap.mp member
        have within := (blocks b block x inBlock).mp member
        exact .inside List.mem_cons_self block (within.mono (by simpa using inBlock))
    · intro within
      rcases within.of_singleton with rfl | ⟨b, block, within⟩
      · exact .inl rfl
      · refine .inr ⟨b, block, List.mem_flatMap.mpr ?_⟩
        obtain ⟨x, inBlock, within⟩ := within.exists_singleton
        exact ⟨x, inBlock, (blocks b block x inBlock).mpr within⟩

theorem mem_flatMap_walk {t : Stmt} {body : List Stmt} : t ∈ body.flatMap walk ↔ t.Within body := by
  rw [List.mem_flatMap]
  constructor
  · rintro ⟨s, member, met⟩
    exact ((mem_walk s).mp met).mono (by simpa using member)
  · intro within
    obtain ⟨s, member, within⟩ := within.exists_singleton
    exact ⟨s, member, (mem_walk s).mpr within⟩

end Stmt

end ProbeWeave.Syntax

namespace ProbeWeave.Weaving

open Syntax ProbeWeave.Graph Probe Project

/-! ### Marked statements in their order -/

namespace Marked

mutual

/-- The statements of a marked tree with their marks, each in front of those of its blocks. -/
def nodes : Marked → List (Stmt × Mark)
  | mk s mark blocks => (s, mark) :: nodesOfBlocks blocks

/-- The statements of a marked block with their marks. -/
def nodesOfBlock : List Marked → List (Stmt × Mark)
  | [] => []
  | m :: rest => nodes m ++ nodesOfBlock rest

/-- The statements of marked blocks with their marks. -/
def nodesOfBlocks : List (List Marked) → List (Stmt × Mark)
  | [] => []
  | b :: rest => nodesOfBlock b ++ nodesOfBlocks rest

end

mutual

theorem map_nodes : ∀ m : Marked, (nodes m).map Prod.snd = marks m
  | mk s mark blocks => by rw [nodes, marks, List.map_cons, map_nodesOfBlocks]

theorem map_nodesOfBlock : ∀ b : List Marked, (nodesOfBlock b).map Prod.snd = marksOfBlock b
  | [] => by rw [nodesOfBlock, marksOfBlock]; rfl
  | m :: rest => by
    rw [nodesOfBlock, marksOfBlock, List.map_append, map_nodes, map_nodesOfBlock]

theorem map_nodesOfBlocks :
    ∀ bs : List (List Marked), (nodesOfBlocks bs).map Prod.snd = marksOfBlocks bs
  | [] => by rw [nodesOfBlocks, marksOfBlocks]; rfl
  | b :: rest => by
    rw [nodesOfBlocks, marksOfBlocks, List.map_append, map_nodesOfBlock, map_nodesOfBlocks]

end

end Marked

/-! ### The site of a statement -/

/-- Whether a value is a timed call, awaited or not. -/
inductive Timing.Times (timing : Timing) : Expr → String → Prop
  | call {call : Call} {probe : String} (timed : timing.probeOf call = some probe) :
      Times timing call.toExpr probe
  | awaited {call : Call} {probe : String} (timed : timing.probeOf call = some probe) :
      Times timing (.await call.toExpr) probe

/-- The sites that statements should have: a timed call that stands alone, is assigned or is returned,
and a loop with a timed call in the scope of its blocks. -/
inductive Timing.Sites (timing : Timing) : Stmt → StatementSite → Prop
  | standalone {lines : Lines} {value : Expr} {probe : String} (timed : timing.Times value probe) :
      Sites timing (.expression lines value) ⟨.standalone, probe⟩
  | assigned {lines : Lines} {targets : List Expr} {value : Expr} {probe : String}
      (timed : timing.Times value probe) :
      Sites timing (.assign lines targets value) ⟨.bound, probe⟩
  | annotated {lines : Lines} {target type value : Expr} {simple : Bool} {probe : String}
      (timed : timing.Times value probe) :
      Sites timing (.annotated lines target type (some value) simple) ⟨.bound, probe⟩
  | returned {lines : Lines} {value : Expr} {temporary probe : String}
      (timed : timing.Times value probe) :
      Sites timing (.returned lines (some value)) ⟨.returned temporary, probe⟩
  | forLoop {lines : Lines} {isAsync : Bool} {target source : Expr} {body otherwise : List Stmt}
      {x : Stmt} {call : Call} {probe : String} (member : x ∈ body ∨ x ∈ otherwise)
      (holds : (Node.stmt x).Holds call) (timed : (timing.probeOf call).isSome = true) :
      Sites timing (.forLoop lines isAsync target source body otherwise) ⟨.loop, probe⟩
  | whileLoop {lines : Lines} {test : Expr} {body otherwise : List Stmt}
      {x : Stmt} {call : Call} {probe : String} (member : x ∈ body ∨ x ∈ otherwise)
      (holds : (Node.stmt x).Holds call) (timed : (timing.probeOf call).isSome = true) :
      Sites timing (.whileLoop lines test body otherwise) ⟨.loop, probe⟩

namespace Timing

variable {timing : Timing}

theorem times_iff {e : Expr} {probe : String} :
    timing.Times e probe ↔ timing.probeOfValue (some e) = some probe := by
  rw [probeOfValue, Option.bind_some, Option.bind_eq_some_iff]
  constructor
  · rintro (⟨timed⟩ | ⟨timed⟩)
    · exact ⟨_, rfl, timed⟩
    · exact ⟨_, rfl, timed⟩
  · rintro ⟨call, found, timed⟩
    cases e with
    | call start callee arguments keywords =>
      cases found
      exact .call timed
    | await value =>
      cases value with
      | call start callee arguments keywords =>
        cases found
        exact .awaited timed
      | _ => cases found
    | _ => cases found

theorem callsTimed_iff {body : List Stmt} : timing.callsTimed body = true ↔
    ∃ x ∈ body, ∃ call, (Node.stmt x).Holds call ∧ (timing.probeOf call).isSome = true := by
  rw [callsTimed, List.any_eq_true]
  simp only [mem_calls]
  constructor
  · rintro ⟨call, ⟨x, member, holds⟩, timed⟩
    exact ⟨x, member, call, holds, timed⟩
  · rintro ⟨x, member, call, holds, timed⟩
    exact ⟨call, ⟨x, member, holds⟩, timed⟩

/-- Whether a statement is a loop with a timed call in its blocks. -/
def timedLoop (timing : Timing) (s : Stmt) : Bool :=
  s.isLoop && timing.callsTimed (loopStatements s)

theorem timedLoop_iff {s : Stmt} (probe : String) :
    timing.timedLoop s = true ↔ timing.Sites s ⟨.loop, probe⟩ := by
  constructor
  · intro looped
    obtain ⟨loop, calls⟩ := Bool.and_eq_true_iff.mp looped
    obtain ⟨x, member, call, holds, timed⟩ := callsTimed_iff.mp calls
    cases s with
    | forLoop => exact .forLoop (List.mem_append.mp member) holds timed
    | whileLoop => exact .whileLoop (List.mem_append.mp member) holds timed
    | _ => cases loop
  · rintro (_ | _ | _ | _ | ⟨member, holds, timed⟩ | ⟨member, holds, timed⟩)
    · exact callsTimed_iff.mpr ⟨_, List.mem_append.mpr member, _, holds, timed⟩
    · exact callsTimed_iff.mpr ⟨_, List.mem_append.mpr member, _, holds, timed⟩

/-- The site of a loop times the loop. -/
theorem Sites.kind_of_isLoop {s : Stmt} {own : StatementSite} (sites : timing.Sites s own)
    (loop : s.isLoop = true) : own.kind = .loop := by
  cases sites with
  | forLoop | whileLoop => rfl
  | standalone | assigned | annotated | returned => cases loop

theorem sites_of_callSite? {s : Stmt} {supply : Supply} {own : StatementSite}
    (found : (timing.callSite? s supply).1 = some own) : timing.Sites s own ∧ own.kind ≠ .loop := by
  unfold callSite? at found
  split at found
  · cases found
  · rename_i probe timed
    split at found
    · cases found
      exact ⟨.standalone (times_iff.mpr timed), nofun⟩
    · cases found
      exact ⟨.assigned (times_iff.mpr timed), nofun⟩
    · rename_i value _
      cases found
      cases value with
      | none => cases timed
      | some value => exact ⟨.annotated (times_iff.mpr timed), nofun⟩
    · rename_i value
      cases found
      cases value with
      | none => cases timed
      | some value => exact ⟨.returned (times_iff.mpr timed), nofun⟩
    · cases found

theorem callSite?_of_sites {s : Stmt} {own : StatementSite} (sites : timing.Sites s own)
    (call : own.kind ≠ .loop) (supply : Supply) : ((timing.callSite? s supply).1).isSome = true := by
  unfold callSite?
  cases sites with
  | forLoop | whileLoop => exact absurd rfl call
  | standalone timed | assigned timed | annotated timed | returned timed =>
    rw [Stmt.slot?, times_iff.mp timed]
    rfl

/-- A loop is no timed call. -/
theorem callSite?_of_isLoop {s : Stmt} (loop : s.isLoop = true) (supply : Supply) :
    timing.callSite? s supply = (none, supply) := by
  unfold callSite?
  cases s with
  | forLoop | whileLoop => split <;> rfl
  | _ => cases loop

/-- The site of a mark is that of a timed call, or that of a loop with its new probe. -/
theorem mark_site_eq (s : Stmt) (m : Mapping) : (timing.mark s m).1.site =
    (timing.callSite? s m.supply).1.or (if timing.timedLoop s then
      some ⟨.loop, (m.registry.addLoop timing.routine s.lines.first).1.name⟩ else none) := by
  unfold timedLoop
  by_cases looped : (s.isLoop && timing.callsTimed (loopStatements s)) = true
  · simp only [mark, looped, if_true]
  · simp only [mark, looped, Bool.false_eq_true, if_false]

theorem mark_registry (s : Stmt) (m : Mapping) : (timing.mark s m).2.registry =
    if timing.timedLoop s then (m.registry.addLoop timing.routine s.lines.first).2
    else m.registry := by
  unfold timedLoop
  by_cases looped : (s.isLoop && timing.callsTimed (loopStatements s)) = true
  · simp only [mark, looped, if_true]
  · simp only [mark, looped, Bool.false_eq_true, if_false]

/-- Whether a mark has the site that its statement should have, and none otherwise. -/
structure Exact (timing : Timing) (x : Stmt × Mark) : Prop where
  only : ∀ own, x.2.site = some own → timing.Sites x.1 own
  all : (∃ own, timing.Sites x.1 own) → x.2.site.isSome = true

/-- The mark of a statement has the site that the statement should have. -/
theorem exact_mark (s : Stmt) (m : Mapping) : timing.Exact (s, (timing.mark s m).1) := by
  refine ⟨fun own found => ?_, fun ⟨own, sites⟩ => ?_⟩
  · rw [mark_site_eq, Option.or_eq_some_iff] at found
    rcases found with call | ⟨-, loop⟩
    · exact (sites_of_callSite? call).1
    · split at loop
      · rename_i looped
        cases loop
        exact (timedLoop_iff _).mp looped
      · cases loop
  · rw [mark_site_eq, Option.isSome_or, Bool.or_eq_true]
    by_cases call : own.kind = .loop
    · obtain ⟨kind, probe⟩ := own
      obtain rfl : kind = .loop := call
      rw [if_pos ((timedLoop_iff probe).mpr sites)]
      exact .inr rfl
    · exact .inl (callSite?_of_sites sites call m.supply)

theorem exact_of_opensScope {s : Stmt} (scope : s.opensScope = true) :
    timing.Exact (s, ⟨none, [], none⟩) := by
  refine ⟨nofun, fun ⟨own, sites⟩ => ?_⟩
  cases sites <;> cases scope

end Timing

/-! ### The probes of loops -/

/-- The probe of a loop that is a site. -/
def Mark.loopProbe? (mark : Mark) : Option String :=
  match mark.site with
  | some ⟨.loop, probe⟩ => some probe
  | _ => none

/-- The loops among statements that are sites, with their probes. -/
def loopSites (nodes : List (Stmt × Mark)) : List (Stmt × String) :=
  nodes.filterMap fun x => x.2.loopProbe?.map (x.1, ·)

theorem loopSites_append (nodes more : List (Stmt × Mark)) :
    loopSites (nodes ++ more) = loopSites nodes ++ loopSites more :=
  List.filterMap_append

/-- What marking statements allots: a new probe to each loop that becomes a site, in their order. -/
structure Allots (routine : Routine) (before after : Registry) (nodes : List (Stmt × Mark)) : Prop where
  registry : after = before.addLoops ((loopSites nodes).map fun x => (routine, x.1.lines.first))
  loops : after.loops =
    before.loops ++ (loopSites nodes).map fun x => ⟨x.2, routine, x.1.lines.first⟩

namespace Allots

variable {routine : Routine} {a b c : Registry} {nodes more : List (Stmt × Mark)}

theorem nil : Allots routine a a [] :=
  ⟨rfl, (List.append_nil _).symm⟩

theorem append (first : Allots routine a b nodes) (second : Allots routine b c more) :
    Allots routine a c (nodes ++ more) where
  registry := by
    rw [second.registry, first.registry, loopSites_append, List.map_append, Registry.addLoops_append]
  loops := by
    rw [second.loops, first.loops, loopSites_append, List.map_append, List.append_assoc]

end Allots

/-- Where every statement has the site it should have, the loops among the sites are the loops with timed
calls. -/
theorem map_loopSites {timing : Timing} {nodes : List (Stmt × Mark)}
    (exact : ∀ x ∈ nodes, timing.Exact x) :
    (loopSites nodes).map Prod.fst = (nodes.map Prod.fst).filter timing.timedLoop := by
  induction nodes with
  | nil => rfl
  | cons x rest ih =>
    obtain ⟨first, others⟩ := List.forall_mem_cons.mp exact
    rw [loopSites, List.filterMap_cons, List.map_cons]
    by_cases looped : timing.timedLoop x.1 = true
    · obtain ⟨own, found⟩ := Option.isSome_iff_exists.mp
        (first.all ⟨_, (Timing.timedLoop_iff "").mp looped⟩)
      obtain ⟨kind, probe⟩ := own
      obtain rfl : kind = .loop :=
        (first.only _ found).kind_of_isLoop (Bool.and_eq_true_iff.mp looped).1
      have served : x.2.loopProbe? = some probe := by rw [Mark.loopProbe?, found]
      rw [served, List.filter_cons_of_pos looped, ← ih others]
      rfl
    · have none : x.2.loopProbe? = none := by
        rw [Mark.loopProbe?]
        split
        · rename_i found
          exact absurd ((Timing.timedLoop_iff _).mpr (first.only _ found)) looped
        · rfl
      rw [none, List.filter_cons_of_neg looped, ← ih others]
      rfl

/-- What is true of marked statements and the registry around them. -/
structure Covers (timing : Timing) (statements : List Stmt) (before after : Registry)
    (nodes : List (Stmt × Mark)) : Prop where
  statements : nodes.map Prod.fst = statements
  exact : ∀ x ∈ nodes, timing.Exact x
  allots : Allots timing.routine before after nodes

namespace Covers

variable {timing : Timing} {ss ts : List Stmt} {a b c : Registry} {nodes more : List (Stmt × Mark)}

theorem nil : Covers timing [] a a [] :=
  ⟨rfl, nofun, .nil⟩

theorem append (first : Covers timing ss a b nodes) (second : Covers timing ts b c more) :
    Covers timing (ss ++ ts) a c (nodes ++ more) where
  statements := by rw [List.map_append, first.statements, second.statements]
  exact := List.forall_mem_append.mpr ⟨first.exact, second.exact⟩
  allots := first.allots.append second.allots

end Covers

namespace Timing

variable (timing : Timing)

theorem covers_mark (s : Stmt) (m : Mapping) :
    Covers timing [s] m.registry (timing.mark s m).2.registry [(s, (timing.mark s m).1)] := by
  refine ⟨rfl, List.forall_mem_singleton.mpr (exact_mark s m), ?_⟩
  have site := @mark_site_eq timing s m
  by_cases looped : timing.timedLoop s = true
  · rw [callSite?_of_isLoop (Bool.and_eq_true_iff.mp looped).1, if_pos looped] at site
    have probe : (timing.mark s m).1.loopProbe? =
        some (m.registry.addLoop timing.routine s.lines.first).1.name := by
      rw [Mark.loopProbe?, site]
      rfl
    have sites : loopSites [(s, (timing.mark s m).1)] =
        [(s, (m.registry.addLoop timing.routine s.lines.first).1.name)] := by
      rw [loopSites, List.filterMap_cons, probe]
      rfl
    rw [mark_registry, if_pos looped]
    exact ⟨by rw [sites]; rfl, by rw [sites]; rfl⟩
  · rw [if_neg looped, Option.or_none] at site
    have probe : (timing.mark s m).1.loopProbe? = none := by
      rw [Mark.loopProbe?, site]
      split
      · rename_i found
        exact absurd rfl (sites_of_callSite? found).2
      · rfl
    have sites : loopSites [(s, (timing.mark s m).1)] = [] := by
      rw [loopSites, List.filterMap_cons, probe]
      rfl
    rw [mark_registry, if_neg looped]
    exact ⟨by rw [sites]; rfl, by rw [sites]; exact (List.append_nil _).symm⟩

/-- What marking covers of a statement and its blocks. -/
def CoversStmt (s : Stmt) : Prop :=
  ∀ m : Mapping, Covers timing s.walk m.registry (timing.markStmt s m).2.registry
    (timing.markStmt s m).1.nodes

variable {timing}

theorem covers_block {b : List Stmt} (each : ∀ s ∈ b, timing.CoversStmt s) (m : Mapping) :
    Covers timing (b.flatMap Stmt.walk) m.registry (timing.markBlock b m).2.registry
      (Marked.nodesOfBlock (timing.markBlock b m).1) := by
  induction b generalizing m with
  | nil =>
    rw [markBlock, Marked.nodesOfBlock]
    exact .nil
  | cons s rest ih =>
    simp only [markBlock, Marked.nodesOfBlock, List.flatMap_cons]
    exact (each s List.mem_cons_self m).append (ih (fun x member => each x (.tail _ member)) _)

theorem covers_blocks {bs : List (List Stmt)} (each : ∀ b ∈ bs, ∀ s ∈ b, timing.CoversStmt s)
    (m : Mapping) :
    Covers timing (bs.flatMap fun b => b.flatMap Stmt.walk) m.registry
      (timing.markBlocks bs m).2.registry (Marked.nodesOfBlocks (timing.markBlocks bs m).1) := by
  induction bs generalizing m with
  | nil =>
    rw [markBlocks, Marked.nodesOfBlocks]
    exact .nil
  | cons b rest ih =>
    simp only [markBlocks, Marked.nodesOfBlocks, List.flatMap_cons]
    exact (covers_block (each b List.mem_cons_self) m).append
      (ih (fun x member => each x (.tail _ member)) _)

theorem covers_stmt (s : Stmt) : timing.CoversStmt s := by
  induction s using Stmt.block_induction with
  | step s blocks =>
    intro m
    rw [Stmt.walk_eq]
    cases inside : s.opensScope with
    | true =>
      rw [timing.markStmt_of_opensScope inside, Stmt.blocks_of_opensScope inside, Marked.nodes,
        Marked.nodesOfBlocks]
      exact ⟨rfl, List.forall_mem_singleton.mpr (exact_of_opensScope inside),
        ⟨rfl, (List.append_nil _).symm⟩⟩
    | false =>
      rw [timing.markStmt_eq inside]
      simp only [Marked.nodes]
      exact (timing.covers_mark s m).append (covers_blocks blocks _)

/-- Marking a block gives each statement of its scope the site it should have, and each loop among the
sites the next probe. -/
theorem covers_markBlock (b : List Stmt) (m : Mapping) :
    Covers timing (b.flatMap Stmt.walk) m.registry (timing.markBlock b m).2.registry
      (Marked.nodesOfBlock (timing.markBlock b m).1) :=
  covers_block (fun s _ => covers_stmt s) m

end Timing

/-! ### Routines -/

section Routines

variable {a : Analysis}

/-- Which calls are timed does not depend on the loops that were met. -/
theorem timingOf_congr {before after : Registry} (same : after.probes = before.probes)
    (caller : Project.Caller) : timingOf a after caller = timingOf a before caller := by
  have probes (r : Routine) : after.probeFor? r = before.probeFor? r := by
    rw [Registry.probeFor?, Registry.probeFor?, same]
  simp only [timingOf, probes]

/-- The probes of the loops of a routine that are sites. -/
def RoutinePlan.loopProbes (plan : RoutinePlan) : List LoopProbe :=
  (loopSites (Marked.nodesOfBlock plan.body)).map fun x =>
    ⟨x.2, plan.definition.routine, x.1.lines.first⟩

/-- What mapping a routine covers. -/
def CoversRoutine (a : Analysis) (registry : Registry) (plan : RoutinePlan) : Prop :=
  ∃ caller, a.project.caller? plan.definition.routine = some caller ∧
    caller.definition = plan.definition ∧
    (Marked.nodesOfBlock plan.body).map Prod.fst = plan.definition.body.flatMap Stmt.walk ∧
    (∀ x ∈ Marked.nodesOfBlock plan.body, (timingOf a registry caller).Exact x) ∧
    (loopSites (Marked.nodesOfBlock plan.body)).map Prod.fst =
      (plan.definition.body.flatMap Stmt.walk).filter (timingOf a registry caller).timedLoop

theorem covers_mapRoutine (caller : Project.Caller) (registry : Registry) :
    Covers (timingOf a registry caller) (caller.definition.body.flatMap Stmt.walk) registry
      (mapRoutine a caller registry).2
      (Marked.nodesOfBlock (mapRoutine a caller registry).1.body) :=
  Timing.covers_markBlock caller.definition.body
    ⟨Supply.fresh temporaryStem (takenNames caller.definition), registry⟩

/-- Mapping a routine allots its loop probes. -/
theorem allots_mapRoutine (caller : Project.Caller) (registry : Registry) :
    (mapRoutine a caller registry).2 = registry.addLoops
        ((mapRoutine a caller registry).1.loopProbes.map fun p => (p.routine, p.line)) ∧
      (mapRoutine a caller registry).2.loops =
        registry.loops ++ (mapRoutine a caller registry).1.loopProbes := by
  obtain ⟨allotted, loops⟩ := (covers_mapRoutine (a := a) caller registry).allots
  refine ⟨allotted.trans ?_, loops⟩
  rw [RoutinePlan.loopProbes, List.map_map]
  rfl

/-- Mapping allots the loop probes of one routine after the other. -/
theorem allots_mapRoutines (routines : List Routine) (registry : Registry) :
    (mapRoutines a routines registry).2 = registry.addLoops
        (((mapRoutines a routines registry).1.flatMap RoutinePlan.loopProbes).map fun p =>
          (p.routine, p.line)) ∧
      (mapRoutines a routines registry).2.loops =
        registry.loops ++ (mapRoutines a routines registry).1.flatMap RoutinePlan.loopProbes := by
  induction routines generalizing registry with
  | nil => exact ⟨rfl, (List.append_nil _).symm⟩
  | cons r rest ih =>
    rw [mapRoutines]
    cases a.project.caller? r with
    | none => exact ih registry
    | some caller =>
      obtain ⟨allotted, loops⟩ := allots_mapRoutine (a := a) caller registry
      obtain ⟨later, others⟩ := ih (mapRoutine a caller registry).2
      dsimp only
      rw [List.flatMap_cons]
      constructor
      · rw [List.map_append, Registry.addLoops_append, ← allotted]
        exact later
      · rw [← List.append_assoc, ← loops]
        exact others

theorem coversRoutine_of_mem (routines : List Routine) {registry : Registry} (before : Registry)
    (same : registry.probes = before.probes)
    (own : ∀ r ∈ routines, ∀ caller, a.project.caller? r = some caller → caller.definition.routine = r) :
    ∀ plan ∈ (mapRoutines a routines registry).1, CoversRoutine a before plan := by
  induction routines generalizing registry with
  | nil => exact fun plan member => absurd member List.not_mem_nil
  | cons r rest ih =>
    obtain ⟨first, others⟩ := List.forall_mem_cons.mp own
    rw [mapRoutines]
    cases found : a.project.caller? r with
    | none => exact ih same others
    | some caller =>
      have covers := covers_mapRoutine (a := a) caller registry
      have grown : (mapRoutine a caller registry).2.probes = registry.probes := by
        rw [covers.allots.registry, (Registry.addLoops_probes _ _).1]
      rw [timingOf_congr same] at covers
      have loops := map_loopSites covers.exact
      rw [covers.statements] at loops
      refine List.forall_mem_cons.mpr ⟨⟨caller, ?_, rfl, covers.statements, covers.exact, loops⟩,
        ih (grown.trans same) others⟩
      rw [← found]
      exact congrArg a.project.caller? (first caller found)

/-- Mapping is complete and exact.

Every routine of the graph is mapped once, into the plan of its module. The marked statements of a
routine are those of its scope, the ones of definitions within left out, and each of them has the
site that it should have: a timed call, awaited or not, that stands alone, is assigned or is
returned has its probe, and a loop is a site if its blocks make a timed call in their scope. The loop
probes that are added to the registry belong to these loops one by one, routine after routine as the
graph lists them and each loop in front of those within; in a registry without loops they are
numbered from one. -/
theorem mapGraph_complete {profile : Profile} (of : a.Of profile) (registry : Registry) :
    let plans := (mapRoutines a a.graph.routines registry).1
    let after := (mapGraph a registry).2
    plans.map (·.definition.routine) = a.graph.routines ∧
    (∀ plan ∈ plans, ∃ unit ∈ (mapGraph a registry).1,
      unit.unit.name = plan.definition.routine.module ∧ plan ∈ unit.routines) ∧
    (∀ plan ∈ plans, CoversRoutine a registry plan ∧
      ∀ t, t ∈ plan.definition.body.flatMap Stmt.walk ↔ t.Within plan.definition.body) ∧
    after.loops = registry.loops ++ plans.flatMap RoutinePlan.loopProbes ∧
    (registry.Ordered → after.fieldNames.Nodup) ∧
    (registry.loops = [] → (after.loops.map LoopProbe.name).Nodup ∧
      ∀ i p, after.loops[i]? = some p → p.name = numberedName "loop" (i + 1) p.routine) := by
  intro plans after
  have allotted := allots_mapRoutines (a := a) a.graph.routines registry
  have own : ∀ r ∈ a.graph.routines, ∀ caller, a.project.caller? r = some caller →
      caller.definition.routine = r := fun r inGraph caller found => by
    obtain ⟨known, same, routine⟩ := of.caller? inGraph
    rw [found] at same
    exact Option.some.inj same ▸ routine
  refine ⟨mapRoutines_routines registry of, fun plan mapped => ?_, fun plan mapped =>
    ⟨coversRoutine_of_mem _ registry rfl own plan mapped, fun t => Stmt.mem_flatMap_walk⟩,
    allotted.2, fun ordered => ((maps_mapGraph registry).ordered ordered).nodup, fun fresh => ?_⟩
  · have inGraph : plan.definition.routine ∈ a.graph.routines := by
      rw [← mapRoutines_routines registry of]
      exact List.mem_map_of_mem mapped
    obtain ⟨m, sorted, named⟩ := exists_module of inGraph
    refine ⟨_, List.mem_map_of_mem (List.mem_map_of_mem sorted), ?_, ?_⟩
    · rw [(foldl_addRoutine _ _).1, ← named]
      rfl
    · rw [(foldl_addRoutine _ _).2]
      exact List.mem_append_right _ (List.mem_filter.mpr ⟨mapped, by simp [named]⟩)
  · have same : after = registry.addLoops _ := allotted.1
    rw [same]
    exact ⟨Registry.nodup_addLoops fresh _, fun i p => Registry.name_addLoops fresh _⟩

end Routines

/-! A loop in a loop. -/

namespace NestedLoops

/-- The entry routine calls a function in a loop in a loop. -/
def unit : SourceUnit where
  path := .absolute ["p", "m.py"]
  relative := ⟨0, ["m.py"]⟩
  name := "m"
  isPackage := false
  source := "def f():\n    pass\n\n\ndef run(xs):\n    for x in xs:\n        while x:\n            f()\n"
  body := [.functionDef ⟨1, 2⟩ false "f" default [.pass ⟨2, 2⟩] [] none,
    .functionDef ⟨5, 8⟩ false "run" (.mk [] [.mk "xs" none none] none [] none)
      [.forLoop ⟨6, 8⟩ false (.name "x" .store) (.name "xs" .load)
        [.whileLoop ⟨7, 8⟩ (.name "x" .load)
          [.expression ⟨8, 8⟩ (.call ⟨8, 12⟩ (.name "f" .load) [] [])] []] []] [] none]

def profile : Profile :=
  { projectDir := some (.absolute ["p"]), methodName := "run", exclude := "", generateReport := false }

def project : Project.Project :=
  ⟨.absolute ["p"], Dictionary.empty.put unit.name unit.index, [], false⟩

def run : Routine := ⟨"m", 1, none, "run", 5⟩
def f : Routine := ⟨"m", 0, none, "f", 1⟩

def analysis : Analysis :=
  ⟨project, run, [], .node run [.node f []], ⟨⟨"m", none⟩, [⟨"probe1_f", f⟩], []⟩⟩

set_option maxRecDepth 10000 in
theorem of_profile : analysis.Of profile where
  known := by
    have parsed : parseModule unit.source = .ok unit.body := by rfl
    have start : Known .empty := ⟨List.nodup_nil, by simp [Dictionary.empty], by simp [Dictionary.empty]⟩
    exact start.put parsed
  entry := by cbv
  exclusions := by cbv
  graph := by cbv
  registry := by cbv

theorem mapGraph_complete_nested : analysis.Of profile ∧
    (mapRoutines analysis analysis.graph.routines analysis.registry).1.map
      (·.definition.routine) = [run, f] ∧
    (mapGraph analysis analysis.registry).2.loops = [⟨"loop1_run", run, 6⟩, ⟨"loop2_run", run, 7⟩] := by
  obtain ⟨routines, -, -, loops, -⟩ := mapGraph_complete of_profile analysis.registry
  exact ⟨of_profile, routines.trans (by cbv), loops.trans (by cbv)⟩

end NestedLoops

end ProbeWeave.Weaving
