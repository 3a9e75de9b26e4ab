import Mathlib.MeasureTheory.Measure.Lebesgue.Basic
import ProbeWeave.Stopwatch

/-! # What a stopwatch shows

The level of a stopwatch is the number of its starts less the number of stops that had an effect, since
it was last reset. A stopwatch runs while its level is positive, and what it shows is how long that
was: nested starts and stray stops change nothing, and an open interval counts up to the reading.

Clocks are exact here, and do not go back.
-/

namespace ProbeWeave.Stopwatch

open MeasureTheory

/-- A use of a stopwatch: what is done with it, and when. -/
structure Use (τ : Type) where
  action : Action
  time : τ

/-! ### Levels -/

/-- How often a stopwatch was started since it was last reset, and how often it was stopped with any
effect. -/
structure Tally where
  starts : Nat
  stops : Nat
  deriving DecidableEq, Repr

namespace Tally

/-- Before anything is done. -/
def none : Tally :=
  ⟨0, 0⟩

/-- The starts that are not stopped yet. -/
def level (t : Tally) : Nat :=
  t.starts - t.stops

/-- Counts what is done: a stop at level zero has no effect. -/
def count (t : Tally) : Action → Tally
  | .start => ⟨t.starts + 1, t.stops⟩
  | .stop => if t.level = 0 then t else ⟨t.starts, t.stops + 1⟩
  | .reset => none
  | .read => t

/-- Only starts can be stopped. -/
theorem stops_le_count {t : Tally} (fewer : t.stops ≤ t.starts) (action : Action) :
    (t.count action).stops ≤ (t.count action).starts := by
  cases action with
  | start => exact Nat.le_succ_of_le fewer
  | stop =>
    rw [count]
    split
    · exact fewer
    · rename_i positive
      have open_ : t.starts - t.stops ≠ 0 := positive
      change t.stops + 1 ≤ t.starts
      omega
  | reset => exact Nat.le_refl _
  | read => exact fewer

end Tally

section Uses

variable {τ : Type}

/-- What a stopwatch was used for, counted. -/
def tally (uses : List (Use τ)) : Tally :=
  uses.foldl (fun t u => t.count u.action) .none

theorem tally_concat (uses : List (Use τ)) (u : Use τ) :
    tally (uses ++ [u]) = (tally uses).count u.action :=
  List.foldl_concat ..

theorem stops_le_starts (uses : List (Use τ)) : (tally uses).stops ≤ (tally uses).starts := by
  induction uses using List.reverseRecOn with
  | nil => exact Nat.le_refl _
  | append_singleton before u ih =>
    rw [tally_concat]
    exact Tally.stops_le_count ih u.action

/-- The level at a time: that behind everything done until then. -/
def levelAt [LE τ] [DecidableLE τ] (uses : List (Use τ)) (time : τ) : Nat :=
  (tally (uses.filter (·.time ≤ time))).level

/-- The times since the last reset and before a reading at which the level is positive. -/
def runningBefore [Preorder τ] [DecidableLE τ] (uses : List (Use τ)) (now : τ) : Set τ :=
  {x | x < now ∧ (∀ u ∈ uses, u.action = .reset → u.time ≤ x) ∧ 0 < levelAt uses x}

end Uses

/-! ### A stopwatch in use -/

section Replay

variable {τ : Type} [AddCommGroup τ]

/-- A stopwatch after all its uses. -/
def replay (uses : List (Use τ)) : Stopwatch τ :=
  uses.foldl (fun s u => s.apply u.action u.time) zero

theorem replay_concat (uses : List (Use τ)) (u : Use τ) :
    replay (uses ++ [u]) = (replay uses).apply u.action u.time :=
  List.foldl_concat ..

/-- One use moves the level of a stopwatch as the tally counts it. -/
theorem level_apply {s : Stopwatch τ} {t : Tally} (fewer : t.stops ≤ t.starts)
    (same : s.level = t.level) (action : Action) (now : τ) :
    (s.apply action now).level = (t.count action).level := by
  cases action with
  | start =>
    change s.level + 1 = t.starts + 1 - t.stops
    rw [same, Tally.level]
    omega
  | stop =>
    rw [apply, stop, Tally.count, ← same]
    split
    · rename_i zero
      rw [if_pos zero]
      exact same
    · rename_i one
      rw [if_neg (by omega)]
      change 0 = t.starts - (t.stops + 1)
      rw [Tally.level] at same
      omega
    · rename_i deep
      rw [if_neg (by omega)]
      change _ + 1 = t.starts - (t.stops + 1)
      rw [Tally.level] at same
      omega
  | reset => rfl
  | read => exact same

/-- The level of a stopwatch is that of its uses. -/
theorem level_replay (uses : List (Use τ)) : (replay uses).level = (tally uses).level := by
  induction uses using List.reverseRecOn with
  | nil => rfl
  | append_singleton before u ih =>
    rw [replay_concat, tally_concat]
    exact level_apply (stops_le_starts before) ih u.action u.time

/-- What a stopwatch shows after a use: what it showed then, and the time since if it runs. -/
theorem seconds_apply (s : Stopwatch τ) {action : Action} (kept : action ≠ .reset) (now later : τ) :
    (s.apply action now).seconds later =
      s.seconds now + if 0 < (s.apply action now).level then later - now else 0 := by
  obtain ⟨level, startedAt, total⟩ := s
  cases action with
  | start =>
    cases level with
    | zero => simp [apply, start, seconds]
    | succ n =>
      simp only [apply, start, seconds, Nat.succ_pos, if_true, Nat.succ_ne_zero, if_false]
      abel
  | stop =>
    match level with
    | 0 => simp [apply, stop, seconds]
    | 1 => simp [apply, stop, seconds]
    | n + 2 =>
      simp only [apply, stop, seconds, Nat.succ_pos, if_true]
      abel
  | reset => exact absurd rfl kept
  | read =>
    cases level with
    | zero => simp [apply, seconds]
    | succ n =>
      simp only [apply, seconds, Nat.succ_pos, if_true]
      abel

end Replay

/-! ### The time at a positive level -/

section Running

variable {τ : Type} [LinearOrder τ] {uses : List (Use τ)} {u : Use τ} {now x : τ}

theorem levelAt_concat_of_lt (earlier : x < u.time) : levelAt (uses ++ [u]) x = levelAt uses x := by
  rw [levelAt, List.filter_append, List.filter_cons_of_neg (by simpa using earlier), List.filter_nil,
    List.append_nil, levelAt]

/-- Behind the last use the level stays as it is. -/
theorem levelAt_of_past (past : ∀ u ∈ uses, u.time ≤ x) : levelAt uses x = (tally uses).level := by
  rw [levelAt, List.filter_eq_self.mpr fun u member => decide_eq_true (past u member)]

theorem past_concat (past : ∀ v ∈ uses, v.time ≤ u.time) (until_ : u.time ≤ x) :
    ∀ v ∈ uses ++ [u], v.time ≤ x := by
  refine List.forall_mem_append.mpr ⟨fun v member => (past v member).trans until_, ?_⟩
  exact List.forall_mem_singleton.mpr until_

/-- Up to its last use a stopwatch ran as before, and since then it runs if its level is positive. -/
theorem runningBefore_concat (kept : u.action ≠ .reset) (past : ∀ v ∈ uses, v.time ≤ u.time)
    (until_ : u.time ≤ now) : runningBefore (uses ++ [u]) now =
      runningBefore uses u.time ∪
        if 0 < (tally (uses ++ [u])).level then Set.Ico u.time now else ∅ := by
  ext x
  rw [Set.mem_union]
  rcases lt_or_ge x u.time with earlier | later
  · have behind : x ∉ (if 0 < (tally (uses ++ [u])).level then Set.Ico u.time now else ∅) := by
      split
      · exact fun inside => not_lt_of_ge inside.1 earlier
      · exact Set.notMem_empty x
    have resets : (∀ v ∈ uses ++ [u], v.action = .reset → v.time ≤ x) ↔
        ∀ v ∈ uses, v.action = .reset → v.time ≤ x := by
      rw [List.forall_mem_append, List.forall_mem_singleton]
      exact and_iff_left fun reset => absurd reset kept
    rw [or_iff_left behind, runningBefore, runningBefore, Set.mem_ofPred_eq, Set.mem_ofPred_eq, resets,
      levelAt_concat_of_lt earlier]
    exact and_congr_left fun _ => iff_of_true (earlier.trans_le until_) earlier
  · have before : x ∉ runningBefore uses u.time := fun running => not_lt_of_ge later running.1
    have all := past_concat past later
    rw [or_iff_right before, runningBefore, Set.mem_ofPred_eq, levelAt_of_past all]
    split
    · rename_i positive
      exact ⟨fun running => ⟨later, running.1⟩,
        fun inside => ⟨inside.2, fun v member _ => all v member, positive⟩⟩
    · rename_i zero
      exact iff_of_false (fun running => zero running.2.2) (Set.notMem_empty x)

/-- A reset leaves nothing of what was before. -/
theorem runningBefore_reset (reset : u.action = .reset) (past : ∀ v ∈ uses, v.time ≤ u.time) :
    runningBefore (uses ++ [u]) now = ∅ := by
  refine Set.eq_empty_of_forall_notMem fun x running => ?_
  obtain ⟨-, resets, positive⟩ := running
  have later : u.time ≤ x := resets u (by simp) reset
  rw [levelAt_of_past (past_concat past later), tally_concat, reset] at positive
  exact Nat.lt_irrefl 0 positive

end Running

section Exact

variable {uses : List (Use ℝ)} {now : ℝ}

/-- A reading is not negative, and it is the length of the time at a positive level. -/
theorem volume_runningBefore (ordered : uses.Pairwise fun u v => u.time ≤ v.time)
    (past : ∀ u ∈ uses, u.time ≤ now) : 0 ≤ (replay uses).seconds now ∧
      volume (runningBefore uses now) = ENNReal.ofReal ((replay uses).seconds now) := by
  induction uses using List.reverseRecOn generalizing now with
  | nil =>
    have empty : runningBefore ([] : List (Use ℝ)) now = ∅ :=
      Set.eq_empty_of_forall_notMem fun x running => Nat.lt_irrefl 0 running.2.2
    have shows : (replay ([] : List (Use ℝ))).seconds now = 0 := rfl
    rw [empty, shows]
    simp
  | append_singleton before u ih =>
    obtain ⟨ordered, -, until_⟩ := List.pairwise_append.mp ordered
    have earlier : ∀ v ∈ before, v.time ≤ u.time := fun v member =>
      until_ v member u List.mem_cons_self
    have last : u.time ≤ now := past u (by simp)
    by_cases reset : u.action = .reset
    · have shows : (replay (before ++ [u])).seconds now = 0 := by
        rw [replay_concat, reset]
        rfl
      rw [runningBefore_reset reset earlier, shows]
      simp
    · obtain ⟨positive, length⟩ := ih ordered earlier
      rw [runningBefore_concat reset earlier last, replay_concat, seconds_apply _ reset, ← replay_concat,
        level_replay]
      split
      · have since : 0 ≤ now - u.time := sub_nonneg.mpr last
        have apart : Disjoint (runningBefore before u.time) (Set.Ico u.time now) :=
          Set.disjoint_left.mpr fun x running inside => not_lt_of_ge inside.1 running.1
        refine ⟨add_nonneg positive since, ?_⟩
        rw [measure_union apart measurableSet_Ico, length, Real.volume_Ico,
          ENNReal.ofReal_add positive since]
      · rw [Set.union_empty, add_zero]
        exact ⟨positive, length⟩

/-- Without a reset, no later reading is smaller. -/
theorem seconds_le {more : List (Use ℝ)} {later : ℝ}
    (ordered : (uses ++ more).Pairwise fun u v => u.time ≤ v.time)
    (since : ∀ u ∈ more, now ≤ u.time) (past : ∀ u ∈ more, u.time ≤ later) (forward : now ≤ later)
    (kept : ∀ u ∈ more, u.action ≠ .reset) :
    (replay uses).seconds now ≤ (replay (uses ++ more)).seconds later := by
  induction more using List.reverseRecOn generalizing later with
  | nil =>
    rw [List.append_nil, seconds, seconds]
    split
    · linarith
    · exact le_rfl
  | append_singleton before u ih =>
    rw [← List.append_assoc] at ordered ⊢
    obtain ⟨inner, -, until_⟩ := List.pairwise_append.mp ordered
    obtain ⟨sinceBefore, sinceLast⟩ := List.forall_mem_append.mp since
    obtain ⟨keptBefore, keptLast⟩ := List.forall_mem_append.mp kept
    have first : (replay uses).seconds now ≤ (replay (uses ++ before)).seconds u.time :=
      ih inner sinceBefore
        (fun v member => until_ v (List.mem_append_right _ member) u List.mem_cons_self)
        (sinceLast u List.mem_cons_self) keptBefore
    have last : u.time ≤ later := past u (by simp)
    rw [replay_concat, seconds_apply _ (keptLast u List.mem_cons_self)]
    split
    · linarith
    · linarith

/-- Whatever is done with a stopwatch by a clock that does not go back: it runs exactly if its level is
positive, and what it shows is the total length of the time since the last reset at which the level
was positive, up to the reading. Without a reset in between, no later reading is smaller. -/
theorem seconds_replay (ordered : uses.Pairwise fun u v => u.time ≤ v.time)
    (past : ∀ u ∈ uses, u.time ≤ now) :
    ((replay uses).isRunning = true ↔ 0 < (tally uses).level) ∧
      0 ≤ (replay uses).seconds now ∧
      volume (runningBefore uses now) = ENNReal.ofReal ((replay uses).seconds now) ∧
      ∀ (more : List (Use ℝ)) (later : ℝ), more.Pairwise (fun u v => u.time ≤ v.time) →
        (∀ u ∈ more, now ≤ u.time) → (∀ u ∈ more, u.time ≤ later) → now ≤ later →
        (∀ u ∈ more, u.action ≠ .reset) →
          (replay uses).seconds now ≤ (replay (uses ++ more)).seconds later := by
  obtain ⟨positive, length⟩ := volume_runningBefore ordered past
  refine ⟨?_, positive, length, fun more later inner since until_ forward kept => ?_⟩
  · rw [isRunning, level_replay, decide_eq_true_iff]
  · have whole : (uses ++ more).Pairwise fun u v => u.time ≤ v.time :=
      List.pairwise_append.mpr ⟨ordered, inner, fun u member v behind =>
        (past u member).trans (since v behind)⟩
    exact seconds_le whole since until_ forward kept

end Exact

namespace Restarted

/-- A stray stop, a nested interval, a reset in the middle of another one, and an interval that is
still open. -/
def uses : List (Use ℝ) :=
  [⟨.stop, 0⟩, ⟨.start, 1⟩, ⟨.start, 2⟩, ⟨.reset, 3⟩, ⟨.stop, 4⟩, ⟨.start, 5⟩, ⟨.start, 6⟩,
    ⟨.stop, 8⟩, ⟨.read, 9⟩]

theorem seconds_replay_restarted :
    (replay uses).isRunning = true ∧ volume (runningBefore uses 10) = ENNReal.ofReal 5 := by
  have ordered : uses.Pairwise fun u v => u.time ≤ v.time := by
    norm_num [uses]
  have past : ∀ u ∈ uses, u.time ≤ 10 := by
    norm_num [uses]
  have positive : 0 < (tally uses).level := by
    decide
  have shows : (replay uses).seconds 10 = 5 := by
    norm_num [uses, replay, apply, start, stop, zero, seconds]
  obtain ⟨running, -, length, -⟩ := seconds_replay ordered past
  exact ⟨running.mpr positive, shows ▸ length⟩

end Restarted

end ProbeWeave.Stopwatch
