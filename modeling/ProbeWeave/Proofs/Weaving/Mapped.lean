import ProbeWeave.Proofs.Probe.Names
import ProbeWeave.Proofs.Weaving.Marking
import ProbeWeave.Weaving.Plan

/-! # What mapping does to the registry

Mapping adds loop probes to the registry and nothing else, and the probe of every mark is a field of
the registry behind it: a call is timed by a probe of the graph, and a loop by the one that was just
added.
-/

namespace ProbeWeave.Weaving

open Syntax Graph Probe

/-! ### Moved calls -/

namespace Hoisting

variable {probeOf : Call → Option String}

/-- Whether all calls that were moved are timed. -/
def Timed (probeOf : Call → Option String) (h : Hoisting) : Prop :=
  ∀ hoist ∈ h.hoists, ∃ call, probeOf call = some hoist.probe

theorem timed_start (supply : Supply) : Timed probeOf (start supply) := by
  simp [Timed, start]

theorem Timed.skip {h : Hoisting} (timed : Timed probeOf h) (parts : List Expr) :
    Timed probeOf (h.skip parts) := by
  rwa [Timed, skip_hoists]

theorem Timed.record {h : Hoisting} (timed : Timed probeOf h) {call : Call} {probe : String}
    (own : probeOf call = some probe) (e bound : Expr) :
    Timed probeOf (h.record e bound probe).2 := by
  refine List.forall_mem_append.mpr ⟨timed, ?_⟩
  rw [List.forall_mem_singleton]
  exact ⟨call, own⟩

theorem probeOf_of_timed? {e c : Expr} {probe : String}
    (timed : timed? probeOf e = some (c, probe)) : ∃ call, probeOf call = some probe := by
  unfold timed? at timed
  split at timed
  · obtain ⟨_, own, same⟩ := Option.map_eq_some_iff.mp timed
    cases same
    exact ⟨_, own⟩
  · cases timed

theorem timed_each {es : List Expr}
    (each : ∀ x ∈ es, ∀ {h : Hoisting}, Timed probeOf h → Timed probeOf (visit probeOf x h).2)
    {h : Hoisting} (timed : Timed probeOf h) : Timed probeOf (visitEach probeOf es h).2 := by
  induction es generalizing h with
  | nil => exact timed
  | cons e rest ih =>
    exact ih (fun x member => each x (.tail _ member)) (each e List.mem_cons_self timed)

theorem timed_visit (e : Expr) :
    ∀ {h : Hoisting}, Timed probeOf h → Timed probeOf (visit probeOf e h).2 := by
  induction e using walk_induction with
  | step e operands inner =>
    intro h before
    cases timed : timed? probeOf e with
    | some found =>
      obtain ⟨c, probe⟩ := found
      obtain ⟨call, own⟩ := probeOf_of_timed? timed
      have walked := timed_each (inner c (innerCall?_of_timed? timed)) before
      rw [visit_timed timed]
      dsimp only
      split
      · exact walked.record own _ _
      · exact walked
    | none =>
      have walked := (timed_each operands before).skip e.skippedParts
      rw [visit_untimed timed]
      dsimp only
      split
      · exact walked
      · exact walked

theorem timed_visitOperands (e : Expr) {h : Hoisting} (timed : Timed probeOf h) :
    Timed probeOf (visitOperands probeOf e h).2 := by
  rw [visitOperands_eq]
  split
  · exact timed_each (fun x _ _ => timed_visit x) timed
  · exact timed

theorem timed_hoistSlot (isSite : Bool) (s : Stmt) (supply : Supply) :
    Timed probeOf (Timing.hoistSlot probeOf isSite s supply).2 := by
  have start : Timed probeOf (start supply) := timed_start supply
  unfold Timing.hoistSlot
  dsimp only
  split
  · split
    · exact timed_visitOperands _ start
    · exact timed_visit _ start
  · exact start

end Hoisting

/-! ### Marks -/

/-- What mapping does to the registry while it makes marks. -/
structure Maps (before after : Registry) (marks : List Mark) : Prop where
  grows : before.Grows after
  ordered : before.Ordered → after.Ordered
  declared : ∀ mark ∈ marks, ∀ probe ∈ mark.probes, probe ∈ after.fieldNames

namespace Maps

variable {a b c : Registry} {marks more : List Mark}

theorem refl (a : Registry) : Maps a a [] :=
  ⟨.refl a, id, by simp⟩

theorem append (first : Maps a b marks) (second : Maps b c more) : Maps a c (marks ++ more) := by
  refine ⟨first.grows.trans second.grows, second.ordered ∘ first.ordered, fun mark member => ?_⟩
  rcases List.mem_append.mp member with member | member
  · exact fun probe serves => second.grows.fieldNames (first.declared mark member probe serves)
  · exact second.declared mark member

end Maps

namespace Timing

variable (timing : Timing)

/-- The probe of a site is that of a timed call or the one of a loop. -/
theorem callSite?_probe {s : Stmt} {supply : Supply} {own : StatementSite}
    (found : (timing.callSite? s supply).1 = some own) :
    ∃ call, timing.probeOf call = some own.probe := by
  unfold callSite? at found
  split at found
  · cases found
  · rename_i probe timed
    obtain ⟨call, -, served⟩ := Option.bind_eq_some_iff.mp timed
    refine ⟨call, ?_⟩
    split at found
    · cases found
      exact served
    · cases found
      exact served
    · cases found
      exact served
    · cases found
      exact served
    · cases found

/-- Whether the probes of timed calls are fields of a registry. -/
def Serves (timing : Timing) (probes : List RoutineProbe) : Prop :=
  ∀ call probe, timing.probeOf call = some probe → probe ∈ probes.map RoutineProbe.name

variable {timing} {probes : List RoutineProbe}

theorem maps_mark (serves : timing.Serves probes) (s : Stmt) {m : Mapping}
    (same : m.registry.probes = probes) :
    Maps m.registry (timing.mark s m).2.registry [(timing.mark s m).1] := by
  have declared {registry : Registry} (kept : registry.probes = probes)
      (sited : ∀ own, (timing.mark s m).1.site = some own → own.probe ∈ registry.fieldNames) :
      ∀ mark ∈ [(timing.mark s m).1], ∀ probe ∈ mark.probes, probe ∈ registry.fieldNames := by
    rw [List.forall_mem_singleton]
    intro probe serving
    rcases List.mem_append.mp serving with hoisted | site
    · obtain ⟨hoist, member, rfl⟩ := List.mem_map.mp hoisted
      obtain ⟨call, own⟩ := Hoisting.timed_hoistSlot _ s _ hoist member
      exact List.mem_append_left _ (kept ▸ serves call _ own)
    · obtain ⟨own, found, rfl⟩ := Option.map_eq_some_iff.mp (Option.mem_toList.mp site)
      exact sited own found
  have called (registry : Registry) (kept : registry.probes = probes) (own : StatementSite)
      (found : (timing.callSite? s m.supply).1 = some own) : own.probe ∈ registry.fieldNames := by
    obtain ⟨call, served⟩ := timing.callSite?_probe found
    exact List.mem_append_left _ (kept ▸ serves call _ served)
  by_cases looped : (s.isLoop && timing.callsTimed (loopStatements s)) = true
  · have registry : (timing.mark s m).2.registry =
        (m.registry.addLoop timing.routine s.lines.first).2 := by
      simp only [mark, looped, if_true]
    have site : (timing.mark s m).1.site = (timing.callSite? s m.supply).1.or
        (some ⟨.loop, (m.registry.addLoop timing.routine s.lines.first).1.name⟩) := by
      simp only [mark, looped, if_true]
    rw [registry]
    refine ⟨.addLoop _ _ _, fun ordered => ordered.addLoop _ _, declared same fun own found => ?_⟩
    rw [site, Option.or_eq_some_iff] at found
    rcases found with call | ⟨-, loop⟩
    · exact called (m.registry.addLoop timing.routine s.lines.first).2 same own call
    · cases loop
      exact List.mem_append_right _ (by simp [Registry.addLoop])
  · have registry : (timing.mark s m).2.registry = m.registry := by
      simp only [mark, looped, Bool.false_eq_true, if_false]
    have site : (timing.mark s m).1.site = (timing.callSite? s m.supply).1 := by
      simp only [mark, looped, Bool.false_eq_true, if_false, Option.or_none]
    rw [registry]
    exact ⟨.refl _, id, declared same fun own found => called _ same own (site ▸ found)⟩

/-- What marking a statement and its blocks does to the registry. -/
def MapsStmt (timing : Timing) (probes : List RoutineProbe) (s : Stmt) : Prop :=
  ∀ m : Mapping, m.registry.probes = probes →
    Maps m.registry (timing.markStmt s m).2.registry (timing.markStmt s m).1.marks

theorem maps_block {b : List Stmt} (each : ∀ s ∈ b, MapsStmt timing probes s) {m : Mapping}
    (same : m.registry.probes = probes) :
    Maps m.registry (timing.markBlock b m).2.registry
      (Marked.marksOfBlock (timing.markBlock b m).1) := by
  induction b generalizing m with
  | nil =>
    rw [markBlock, Marked.marksOfBlock]
    exact .refl _
  | cons s rest ih =>
    have first := each s List.mem_cons_self m same
    simp only [markBlock, Marked.marksOfBlock]
    exact first.append (ih (fun x member => each x (.tail _ member)) (first.grows.probes.trans same))

theorem maps_blocks {bs : List (List Stmt)} (each : ∀ b ∈ bs, ∀ s ∈ b, MapsStmt timing probes s)
    {m : Mapping} (same : m.registry.probes = probes) :
    Maps m.registry (timing.markBlocks bs m).2.registry
      (Marked.marksOfBlocks (timing.markBlocks bs m).1) := by
  induction bs generalizing m with
  | nil =>
    rw [markBlocks, Marked.marksOfBlocks]
    exact .refl _
  | cons b rest ih =>
    have first := maps_block (each b List.mem_cons_self) same
    simp only [markBlocks, Marked.marksOfBlocks]
    exact first.append (ih (fun x member => each x (.tail _ member)) (first.grows.probes.trans same))

theorem maps_stmt (serves : timing.Serves probes) (s : Stmt) : MapsStmt timing probes s := by
  induction s using Stmt.block_induction with
  | step s blocks =>
    intro m same
    cases inside : s.opensScope with
    | true =>
      rw [timing.markStmt_of_opensScope inside]
      refine ⟨.refl _, id, ?_⟩
      simp [Marked.marks, Marked.marksOfBlocks, Mark.probes]
    | false =>
      have own := maps_mark serves s same
      rw [timing.markStmt_eq inside]
      simp only [Marked.marks]
      exact own.append (maps_blocks blocks (own.grows.probes.trans same))

end Timing

/-! ### Routines -/

variable {a : Analysis}

theorem serves_timingOf (registry : Registry) (caller : Project.Caller) :
    (timingOf a registry caller).Serves registry.probes := by
  intro call probe served
  obtain ⟨target, -, found⟩ := Option.bind_eq_some_iff.mp served
  obtain ⟨own, known, same⟩ := Option.bind_eq_some_iff.mp found
  cases same
  exact List.mem_map_of_mem (List.mem_of_find?_eq_some known)

theorem maps_mapRoutine (caller : Project.Caller) (registry : Registry) :
    Maps registry (mapRoutine a caller registry).2
      (Marked.marksOfBlock (mapRoutine a caller registry).1.body) := by
  have serves := serves_timingOf (a := a) registry caller
  exact Timing.maps_block (fun s _ => Timing.maps_stmt serves s)
    (m := ⟨Supply.fresh temporaryStem (takenNames caller.definition), registry⟩) rfl

/-- Mapping routines makes their marks one after the other. -/
theorem maps_mapRoutines (routines : List Routine) (registry : Registry) :
    Maps registry (mapRoutines a routines registry).2
      ((mapRoutines a routines registry).1.flatMap fun r => Marked.marksOfBlock r.body) := by
  induction routines generalizing registry with
  | nil => exact .refl _
  | cons r rest ih =>
    rw [mapRoutines]
    cases a.project.caller? r with
    | none => exact ih registry
    | some caller => exact (maps_mapRoutine caller registry).append (ih _)

/-- The registry of an instrumentation declares the probes of all marks, under different names. -/
theorem maps_mapGraph (registry : Registry) :
    Maps registry (mapGraph a registry).2
      ((mapRoutines a a.graph.routines registry).1.flatMap fun r => Marked.marksOfBlock r.body) :=
  maps_mapRoutines a.graph.routines registry

end ProbeWeave.Weaving
