import ProbeWeave.Proofs.Control.Paths
import ProbeWeave.Proofs.Weaving.BoundOnce
import ProbeWeave.Stopwatch

/-! # Starts and stops of probes

What happens to the probes on a path through a rebuilt body, what it does to their stopwatches, and
when starts and stops are balanced.
-/

namespace ProbeWeave

theorem Stopwatch.level_stop {τ : Type} [Add τ] [Sub τ] (now : τ) (s : Stopwatch τ) :
    (s.stop now).level = s.level - 1 := by
  unfold stop
  split <;> simp_all

namespace Weaving

open Syntax

/-- A probe is started or stopped, named by the chain of names that leads to it. -/
inductive ProbeEvent where
  | start (reference : List String)
  | stop (reference : List String)
  deriving DecidableEq, Repr

/-- What a statement does to a probe, when the chains that lead to probes are given. -/
def probeEvent? (references : List (List String)) : Stmt → Option ProbeEvent
  | .expression _ (.call _ (.member target method) [] []) =>
    (target.dottedParts?.filter references.contains).bind fun reference =>
      if method = "start" then some (.start reference)
      else if method = "stop" then some (.stop reference)
      else none
  | _ => none

/-- Only statements that start or stop a probe do anything to one. -/
theorem probeEvent?_eq_none {references : List (List String)} {s : Stmt}
    (useful : ∀ lines e, s = .expression lines e → isProbeCall references e = false) :
    probeEvent? references s = none := by
  unfold probeEvent?
  split
  · rename_i lines start target method
    have other := useful _ _ rfl
    simp only [isProbeCall, Bool.and_eq_false_iff, Bool.or_eq_false_iff, beq_eq_false_iff_ne] at other
    rcases other with ⟨notStart, notStop⟩ | unknown
    · simp [notStart, notStop]
    · cases chain : target.dottedParts? with
      | none => rfl
      | some parts =>
        rw [chain, Option.any_some] at unknown
        rw [Option.filter, if_neg (by simpa using unknown), Option.bind_none]
  · rfl

theorem probeEvent?_start {references : List (List String)} {site : Site} {probe : String}
    (known : site.chain probe ∈ references) :
    probeEvent? references (site.start probe) = some (.start (site.chain probe)) := by
  simp [probeEvent?, Site.start, methodCall, callOf, site.dottedParts?_probe, Option.filter, known]

theorem probeEvent?_stop {references : List (List String)} {site : Site} {probe : String}
    (known : site.chain probe ∈ references) :
    probeEvent? references (site.stop probe) = some (.stop (site.chain probe)) := by
  simp [probeEvent?, Site.stop, methodCall, callOf, site.dottedParts?_probe, Option.filter, known]

namespace ProbeEvent

/-- The probes that run when events are over, last started first, if every probe that is stopped is
the one that was started last. -/
def nest : List (List String) → List ProbeEvent → Option (List (List String))
  | running, [] => some running
  | running, .start reference :: later => nest (reference :: running) later
  | running, .stop reference :: later =>
    match running with
    | last :: others => if last = reference then nest others later else none
    | [] => none

theorem nest_append (running : List (List String)) (es later : List ProbeEvent) :
    nest running (es ++ later) = (nest running es).bind (nest · later) := by
  fun_induction nest running es <;> simp_all [nest]

section Stopwatch

variable {τ : Type} [Add τ] [Sub τ]

/-- What an event at a time does to the stopwatches. -/
def apply (event : ProbeEvent) (now : τ) (watches : List String → Stopwatch τ) :
    List String → Stopwatch τ :=
  match event with
  | .start reference => Function.update watches reference ((watches reference).start now)
  | .stop reference => Function.update watches reference ((watches reference).stop now)

/-- What events, each at its time, do to the stopwatches. -/
def applyAll (watches : List String → Stopwatch τ) : List (ProbeEvent × τ) → List String → Stopwatch τ
  | [] => watches
  | (event, now) :: later => applyAll (event.apply now watches) later

/-- Every stopwatch goes as many levels deeper as its probe is left running. -/
theorem level_applyAll {timed : List (ProbeEvent × τ)} {running after : List (List String)}
    (nested : nest running (timed.map Prod.fst) = some after) {base : List String → Nat}
    {watches : List String → Stopwatch τ}
    (levels : ∀ c, (watches c).level = base c + running.count c) (c : List String) :
    (applyAll watches timed c).level = base c + after.count c := by
  induction timed generalizing running watches with
  | nil =>
    obtain rfl : running = after := Option.some.inj nested
    exact levels c
  | cons first later ih =>
    obtain ⟨event, now⟩ := first
    cases event with
    | start reference =>
      refine ih nested fun d => ?_
      by_cases same : d = reference
      · subst same
        simp [apply, Stopwatch.start, levels d, Nat.add_assoc]
      · simp [apply, same, Ne.symm same, levels d]
    | stop reference =>
      cases running with
      | nil => cases nested
      | cons last others =>
        by_cases top : last = reference
        · subst top
          simp only [List.map_cons, nest, if_true] at nested
          refine ih nested fun d => ?_
          by_cases same : d = last
          · subst same
            have level := levels d
            rw [List.count_cons_self] at level
            simp [apply, Stopwatch.level_stop, level]
          · simp [apply, same, Ne.symm same, levels d]
        · simp [nest, top] at nested

end Stopwatch

/-- Every probe is stopped as often as it is started, and always the one that was started last. What
runs afterwards is what ran before. -/
structure Balanced (es : List ProbeEvent) : Prop where
  equally : ∀ reference, es.count (.start reference) = es.count (.stop reference)
  nested : ∀ running, nest running es = some running
  restored : ∀ {τ : Type} [Add τ] [Sub τ] (timed : List (ProbeEvent × τ)), timed.map Prod.fst = es →
    ∀ (watches : List String → Stopwatch τ) (reference : List String),
      (applyAll watches timed reference).isRunning = (watches reference).isRunning

/-- Which probes events leave running, and that nothing else is wrong with them. -/
structure LeaveRunning (site : Site) (es : List ProbeEvent) (left : List String) : Prop where
  nested : left = [] → ∀ running, nest running es = some running
  counted : ∀ reference, es.count (.start reference) =
    es.count (.stop reference) + (left.map site.chain).count reference

variable {site : Site} {es : List ProbeEvent} {left : List String}

theorem additive_leaveRunning (site : Site) : Paths.Additive (LeaveRunning site) where
  nil := ⟨fun _ _ => rfl, fun _ => rfl⟩
  append := by
    intro as bs cs ds first second
    refine ⟨fun nothing running => ?_, fun reference => ?_⟩
    · obtain ⟨rfl, rfl⟩ := List.append_eq_nil_iff.mp nothing
      rw [nest_append, first.nested rfl, Option.bind_some, second.nested rfl]
    · simp only [List.map_append, List.count_append, first.counted, second.counted]
      omega

/-- A probe that is started and stopped around events is not left running. -/
theorem LeaveRunning.stopped (inner : LeaveRunning site es left) (probe : String) :
    LeaveRunning site (.start (site.chain probe) :: (es ++ [.stop (site.chain probe)])) left where
  nested := by
    intro nothing running
    simp [nest, nest_append, inner.nested nothing]
  counted := by
    intro reference
    have counted := inner.counted reference
    by_cases same : site.chain probe = reference
    · subst same
      simp [counted]
      omega
    · simp [same, counted]

/-- A probe that is only started in front of events is left running, too. -/
theorem LeaveRunning.started (inner : LeaveRunning site es left) (probe : String) :
    LeaveRunning site (.start (site.chain probe) :: es) (probe :: left) where
  nested := nofun
  counted := by
    intro reference
    have counted := inner.counted reference
    by_cases same : site.chain probe = reference
    · subst same
      simp [counted]
      omega
    · simp [same, counted]

theorem LeaveRunning.balanced (nothing : LeaveRunning site es []) : Balanced es where
  equally := by simpa using nothing.counted
  nested := nothing.nested rfl
  restored := by
    intro τ _ _ timed same watches reference
    have nested : nest [] (timed.map Prod.fst) = some [] := by rw [same, nothing.nested rfl]
    have levels : ∀ c, (watches c).level = (watches c).level + ([] : List (List String)).count c :=
      fun c => by rw [List.count_nil, Nat.add_zero]
    rw [Stopwatch.isRunning, level_applyAll nested levels, List.count_nil, Nat.add_zero,
      Stopwatch.isRunning]

theorem LeaveRunning.eq_nil (leaves : LeaveRunning site es left) (balanced : Balanced es) :
    left = [] := by
  cases left with
  | nil => rfl
  | cons probe others =>
    have counted := leaves.counted (site.chain probe)
    rw [balanced.equally, List.map_cons, List.count_cons_self] at counted
    omega

end ProbeEvent

end Weaving

end ProbeWeave
