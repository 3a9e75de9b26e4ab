import Mathlib.Order.Bounds.Basic
import ProbeWeave.Graph.Model
import ProbeWeave.Outcome
import ProbeWeave.Proofs.Graph.Reach

/-! # The routines of a call graph

A routine calls another if some call in its body runs it and the call is kept: its routine can be
told, is the program's own and is not left out. The recursive graph of an entry holds exactly what
is reached from the entry along such calls, which is the least set with the entry that is closed
under them; the other graph holds the entry and what it calls. That cutting a routine met again
loses nothing is the `complete` part of what a search explores.
-/

namespace ProbeWeave.Graph

open Syntax Outcome

namespace ProgramModel

variable {ε : Type} {m : ProgramModel ε} {exclusions : List String}

/-- A kept call in the body of one routine runs the other. -/
def Calls (m : ProgramModel ε) (exclusions : List String) (r t : Routine) : Prop :=
  ∃ call ∈ calls (m.body r), m.target? r call = .ok (some t) ∧ m.owns t = true ∧
    t.matchesAny exclusions = false

/-- The sets that hold the entry and whatever a routine in them calls. -/
def closedSets (m : ProgramModel ε) (exclusions : List String) (entry : Routine) :
    Set (Set Routine) :=
  {S | entry ∈ S ∧ ∀ r ∈ S, ∀ t, m.Calls exclusions r t → t ∈ S}

/-- Whether the routine of every call in a routine can be told. -/
def CanTell (m : ProgramModel ε) (r : Routine) : Prop :=
  ∀ call ∈ calls (m.body r), ∃ found, m.target? r call = .ok found

theorem keptTarget?_eq_some {r t : Routine} {call : Call} :
    m.keptTarget? exclusions r call = .ok (some t) ↔
      m.target? r call = .ok (some t) ∧ m.owns t = true ∧ t.matchesAny exclusions = false := by
  unfold keptTarget?
  rw [bind_eq_ok]
  constructor
  · rintro ⟨found, known, kept⟩
    rw [pure_eq_ok, Option.filter_eq_some_iff] at kept
    obtain ⟨rfl, kept⟩ := kept
    simpa [known, keeps] using kept
  · rintro ⟨known, owned, included⟩
    exact ⟨some t, known, by simp [pure_eq_ok, Option.filter_eq_some_iff, keeps, owned, included]⟩

/-- The callees that are found are the routines called. -/
theorem mem_callees {r t : Routine} {targets : List Routine}
    (found : m.callees exclusions r = .ok targets) : t ∈ targets ↔ m.Calls exclusions r t := by
  obtain ⟨options, asked, found⟩ := bind_eq_ok.mp found
  rw [pure_eq_ok] at found
  subst found
  simp only [List.mem_filterMap, id_eq, exists_eq_right]
  constructor
  · intro member
    have origin := gives_mapM (P := fun o => ∃ call ∈ calls (m.body r),
      m.keptTarget? exclusions r call = .ok o) (fun call inBody o told => ⟨call, inBody, told⟩)
      options asked (some t) member
    obtain ⟨call, inBody, told⟩ := origin
    exact ⟨call, inBody, keptTarget?_eq_some.mp told⟩
  · rintro ⟨call, inBody, told⟩
    obtain ⟨o, member, same⟩ := mem_of_mapM_of_mem asked inBody
    rw [keptTarget?_eq_some.mpr told, Except.ok.injEq] at same
    exact same ▸ member

/-- The callees of a routine are found if every call in it can be told. -/
theorem callees_found {r : Routine} :
    (∃ targets, m.callees exclusions r = .ok targets) ↔ m.CanTell r := by
  constructor
  · rintro ⟨targets, found⟩ call inBody
    obtain ⟨options, asked, -⟩ := bind_eq_ok.mp found
    obtain ⟨o, -, told⟩ := mem_of_mapM_of_mem asked inBody
    obtain ⟨target, known, -⟩ := bind_eq_ok.mp told
    exact ⟨target, known⟩
  · intro told
    have each : ∀ call ∈ calls (m.body r), ∃ o, m.keptTarget? exclusions r call = .ok o := by
      intro call inBody
      obtain ⟨target, known⟩ := told call inBody
      exact ⟨_, bind_eq_ok.mpr ⟨target, known, rfl⟩⟩
    obtain ⟨options, asked⟩ := mapM_succeeds each
    exact ⟨_, bind_eq_ok.mpr ⟨options, asked, rfl⟩⟩

theorem calleesOrNone_of_found {r : Routine} {targets : List Routine}
    (found : m.callees exclusions r = .ok targets) : m.calleesOrNone exclusions r = targets := by
  simp [calleesOrNone, found, Except.toOption]

/-- A callee is called, also where not all callees can be told. -/
theorem calls_of_mem_calleesOrNone {r t : Routine} (member : t ∈ m.calleesOrNone exclusions r) :
    m.Calls exclusions r t := by
  cases found : m.callees exclusions r with
  | error fault => simp [calleesOrNone, found, Except.toOption] at member
  | ok targets =>
    rw [calleesOrNone_of_found found] at member
    exact (mem_callees found).mp member

/-- The entry and the routines of the program have their callees among themselves. -/
theorem calleesOrNone_subset (entry r : Routine) :
    m.calleesOrNone exclusions r ⊆ entry :: m.routines := by
  intro t member
  obtain ⟨call, -, known, -⟩ := calls_of_mem_calleesOrNone member
  exact List.mem_cons_of_mem _ (m.target_mem known)

theorem reach_explores (entry : Routine) :
    ∃ after, CallTree.Explores (m.calleesOrNone exclusions) []
      (CallTree.occurrences
        [CallTree.reach (m.calleesOrNone exclusions) m.routines.length entry]) after := by
  refine ⟨_, CallTree.follow_explores
    (fun r _ => calleesOrNone_subset entry r) List.mem_cons_self ?_⟩
  exact CallTree.room_nil_le.trans (by simp)

theorem reach_add (entry : Routine) (more : Nat) :
    CallTree.reach (m.calleesOrNone exclusions) (m.routines.length + more) entry =
      CallTree.reach (m.calleesOrNone exclusions) m.routines.length entry := by
  induction more with
  | zero => rfl
  | succ more ih =>
    rw [← ih, CallTree.reach, CallTree.reach]
    refine congrArg Prod.fst (CallTree.follow_succ
      (fun r _ => calleesOrNone_subset entry r) List.mem_cons_self ?_)
    exact CallTree.room_nil_le.trans (by simp)

/-- A graph whose callees can all be told has its entry and is closed under calls. -/
theorem reach_closed {entry : Routine} {graph : CallTree}
    (built : CallTree.reach (m.calleesOrNone exclusions) m.routines.length entry = graph)
    (told : ∀ r ∈ graph.routines, ∃ targets, m.callees exclusions r = .ok targets) :
    {r | r ∈ graph.routines} ∈ m.closedSets exclusions entry := by
  subst built
  obtain ⟨after, explored⟩ := reach_explores (m := m) entry
  refine ⟨?_, fun r inGraph t called => ?_⟩
  · refine CallTree.mem_routines.mpr ?_
    have root := CallTree.routine_mem_occurrences (List.mem_singleton_self
      (CallTree.reach (m.calleesOrNone exclusions) m.routines.length entry))
    rwa [CallTree.reach, CallTree.follow_root] at root
  · obtain ⟨targets, found⟩ := told r inGraph
    have inAfter := explored.adds (CallTree.mem_routines.mp inGraph)
    have callees := explored.complete r inAfter (by simp)
    rw [calleesOrNone_of_found found] at callees
    have member := callees ((mem_callees found).mpr called)
    have occurs := (explored.only t member).resolve_left (by simp)
    exact CallTree.mem_routines.mpr occurs

/-- The routines of a graph are in every closed set with the entry. -/
theorem routines_reach_subset {entry : Routine} {S : Set Routine}
    (closed : S ∈ m.closedSets exclusions entry) :
    ∀ r ∈ (CallTree.reach (m.calleesOrNone exclusions) m.routines.length entry).routines,
      r ∈ S := by
  intro r inGraph
  refine CallTree.follow_inside (fun x inS t member => ?_) _ [] closed.1 r
    (CallTree.mem_routines.mp inGraph)
  exact closed.2 x inS t (calls_of_mem_calleesOrNone member)

theorem callGraph_eq_ok {recursive : Bool} {entry : Routine} {graph : CallTree} :
    m.callGraph exclusions recursive entry = .ok graph ↔
      graph = (if recursive then
          CallTree.reach (m.calleesOrNone exclusions) m.routines.length entry
        else CallTree.direct (m.calleesOrNone exclusions) entry) ∧
      ∀ r ∈ (if recursive then graph.routines else [entry]),
        ∃ targets, m.callees exclusions r = .ok targets := by
  unfold callGraph
  dsimp only
  rw [bind_eq_ok]
  simp only [pure_eq_ok]
  constructor
  · rintro ⟨⟨⟩, checked, rfl⟩
    exact ⟨rfl, fun r member => discard_eq_ok.mp (forM_eq_ok.mp checked r member)⟩
  · rintro ⟨rfl, told⟩
    exact ⟨(), forM_eq_ok.mpr fun r member => discard_eq_ok.mpr (told r member), rfl⟩

theorem mem_routines_direct {callees : Routine → List Routine} {entry r : Routine} :
    r ∈ (CallTree.direct callees entry).routines ↔ r = entry ∨ r ∈ callees entry := by
  rw [CallTree.mem_routines, CallTree.direct, CallTree.occurrences_node, CallTree.occurrences_leaves,
    List.mem_cons]

/-- The call graph of an entry.

The recursive graph holds the least set with the entry that is closed under kept calls, the other
one the entry and what it calls. A graph is found unless some call of a routine that belongs to it
cannot be told. Cycles of calls do not keep the search from ending: whatever bound beyond its own
the chains of calls are followed to, the graph is the same. -/
theorem callGraph_routines (m : ProgramModel ε) (exclusions : List String) (entry : Routine) :
    (∀ graph, m.callGraph exclusions true entry = .ok graph →
      IsLeast (m.closedSets exclusions entry) {r | r ∈ graph.routines}) ∧
    (∀ graph, m.callGraph exclusions false entry = .ok graph →
      ∀ r, r ∈ graph.routines ↔ r = entry ∨ m.Calls exclusions entry r) ∧
    ((∃ graph, m.callGraph exclusions true entry = .ok graph) ↔
      ∀ r, (∀ S ∈ m.closedSets exclusions entry, r ∈ S) → m.CanTell r) ∧
    ((∃ graph, m.callGraph exclusions false entry = .ok graph) ↔ m.CanTell entry) ∧
    ∀ more, CallTree.reach (m.calleesOrNone exclusions) (m.routines.length + more) entry =
      CallTree.reach (m.calleesOrNone exclusions) m.routines.length entry := by
  refine ⟨?least, ?direct, ⟨?told, ?found⟩, ?directFound, reach_add entry⟩
  case least =>
    intro graph success
    obtain ⟨built, told⟩ := callGraph_eq_ok.mp success
    simp only [if_true] at built told
    refine ⟨reach_closed built.symm told, fun S closed r inGraph => ?_⟩
    subst built
    exact routines_reach_subset closed r inGraph
  case direct =>
    intro graph success r
    obtain ⟨rfl, told⟩ := callGraph_eq_ok.mp success
    obtain ⟨targets, found⟩ := told entry (by simp)
    simp only [Bool.false_eq_true, if_false]
    rw [mem_routines_direct, calleesOrNone_of_found found, mem_callees found]
  case told =>
    rintro ⟨graph, success⟩ r reached
    obtain ⟨built, told⟩ := callGraph_eq_ok.mp success
    simp only [if_true] at built told
    have inGraph := reached _ (reach_closed built.symm told)
    exact callees_found.mp (told r inGraph)
  case found =>
    intro told
    refine ⟨_, callGraph_eq_ok.mpr ⟨rfl, fun r inGraph => ?_⟩⟩
    simp only [if_true] at inGraph
    refine callees_found.mpr (told r fun S closed => ?_)
    exact routines_reach_subset closed r inGraph
  case directFound =>
    constructor
    · rintro ⟨graph, success⟩
      exact callees_found.mp ((callGraph_eq_ok.mp success).2 entry (by simp))
    · intro told
      refine ⟨_, callGraph_eq_ok.mpr ⟨rfl, fun r member => ?_⟩⟩
      obtain rfl : r = entry := by simpa using member
      exact callees_found.mpr told

end ProgramModel

end ProbeWeave.Graph
