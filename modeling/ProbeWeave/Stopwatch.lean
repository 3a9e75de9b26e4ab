import ProbeWeave.Duration

/-!
# Stopwatches

A stopwatch adds up the time between its starts and stops. Starts nest: only the outermost interval
counts, so a routine that calls itself is not counted twice. A stop that no start belongs to changes
nothing. The clock is read by whoever uses the stopwatch, and its readings may be of any type with
sums and differences.
-/

namespace ProbeWeave

/-- A stopwatch. -/
structure Stopwatch (τ : Type) where
  /-- How many starts are not stopped yet. -/
  level : Nat
  /-- When the outermost of them was. -/
  startedAt : τ
  /-- The time of all intervals that are over. -/
  total : τ
  deriving DecidableEq, Inhabited, Repr

namespace Stopwatch

variable {τ : Type} [Zero τ] [Add τ] [Sub τ]

/-- A stopwatch that was never started. -/
def zero : Stopwatch τ :=
  ⟨0, 0, 0⟩

/-- Starts timing, or goes one level deeper. -/
def start (now : τ) (s : Stopwatch τ) : Stopwatch τ :=
  ⟨s.level + 1, if s.level = 0 then now else s.startedAt, s.total⟩

/-- Goes one level up; the outermost interval is added to the total. -/
def stop (now : τ) (s : Stopwatch τ) : Stopwatch τ :=
  match s.level with
  | 0 => s
  | 1 => ⟨0, s.startedAt, s.total + (now - s.startedAt)⟩
  | level + 2 => ⟨level + 1, s.startedAt, s.total⟩

/-- Whether an interval is open. -/
def isRunning (s : Stopwatch τ) : Bool :=
  0 < s.level

/-- The time so far, an open interval included. -/
def seconds (now : τ) (s : Stopwatch τ) : τ :=
  if 0 < s.level then s.total + (now - s.startedAt) else s.total

/-- What is done with a stopwatch. -/
inductive Action where
  | start
  | stop
  | reset
  | read
  deriving DecidableEq, Inhabited, Repr

/-- Does something at a time. -/
def apply (action : Action) (now : τ) (s : Stopwatch τ) : Stopwatch τ :=
  match action with
  | .start => s.start now
  | .stop => s.stop now
  | .reset => zero
  | .read => s

/-- The whole milliseconds so far. -/
def milliseconds (now : Float) (s : Stopwatch Float) : Except Number.NotFinite Int :=
  Number.wholePart (s.seconds now * 1000).toBits

/-- The time so far as a duration. -/
def elapsed (now : Float) (s : Stopwatch Float) : Except Duration.Fault Duration :=
  Duration.ofSeconds (s.seconds now).toBits

/-- What a stopwatch is shown as. -/
def text (now : Float) (s : Stopwatch Float) : Except Number.NotFinite String := do
  return "Stopwatch(elapsed_ms=" ++ toString (← s.milliseconds now) ++ ", running=" ++
    (if s.isRunning then "True" else "False") ++ ")"

end Stopwatch

end ProbeWeave
