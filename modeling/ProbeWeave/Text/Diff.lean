import ProbeWeave.Text.Lines
import Std.Data.HashMap

/-!
# Differences between two texts

Two texts are compared by their lines. The longest run of lines that both have in common, the first
of several, stays; what is before it and what is behind it is compared in the same way. In a long
text lines that occur too often cannot begin a common run, only make one longer.

The differences are shown in groups with up to three common lines around them.
-/

namespace ProbeWeave.Text

namespace Diff

/-- A common run: where it begins in both texts and how many lines it has. -/
structure Run where
  before : Nat
  after : Nat
  size : Nat
  deriving DecidableEq, Inhabited, Repr

/-- The texts to compare, with the places in the second one at which a line may begin a run. -/
structure Comparison where
  before : Array String
  after : Array String
  places : Std.HashMap String (List Nat)

/-- The places of every line, from the last to the first. -/
def placesOf (lines : Array String) : Std.HashMap String (List Nat) :=
  (lines.toList.zipIdx.foldl (fun m (line, i) => m.insert line (i :: m.getD line []))
    (∅ : Std.HashMap String (List Nat)))

/-- The number of lines from which on frequent lines are passed over. -/
def longText : Nat := 200

/-- Whether a line occurs too often to begin a run. -/
def isFrequent (total count : Nat) : Bool :=
  longText ≤ total && total / 100 + 1 < count

/-- Prepares two texts for comparison. -/
def Comparison.ofLines (before after : Array String) : Comparison :=
  let places := placesOf after
  ⟨before, after, places.filterMap fun _ found =>
    if isFrequent after.size found.length then none else some found.reverse⟩

namespace Comparison

/-- Whether the texts have the same line at two places. -/
def agree (c : Comparison) (i j : Nat) : Bool :=
  match c.before[i]?, c.after[j]? with
  | some a, some b => a == b
  | _, _ => false

/--
The lengths of the runs that end at a line of the first text, by their ends in the second one, given
those that end at the line before.
-/
def lengthen : List (Nat × Nat) → List Nat → List (Nat × Nat)
  | _, [] => []
  | previous, j :: places =>
    let previous := previous.dropWhile fun (k, _) => k + 1 < j
    let length :=
      match previous with
      | (k, n) :: _ => if k + 1 == j then n + 1 else 1
      | [] => 1
    (j, length) :: lengthen previous places

/-- The first longest run of lines that may begin one. -/
def longestStrict (c : Comparison) (i₁ i₂ j₁ j₂ : Nat) : Run :=
  let step (state : Run × List (Nat × Nat)) (i : Nat) : Run × List (Nat × Nat) :=
    let places := ((c.before[i]?.bind c.places.get?).getD []).filter fun j => j₁ ≤ j && j < j₂
    let ends := lengthen state.2 places
    let best := ends.foldl (fun (best : Run) (j, n) =>
      if best.size < n then ⟨i + 1 - n, j + 1 - n, n⟩ else best) state.1
    (best, ends)
  ((List.range' i₁ (i₂ - i₁)).foldl step (⟨i₁, j₁, 0⟩, [])).1

/-- Extends a run to the front, at most by some lines. -/
def extendFront (c : Comparison) : Nat → Run → Run
  | 0, run => run
  | room + 1, run =>
    if c.agree (run.before - 1) (run.after - 1) then
      c.extendFront room ⟨run.before - 1, run.after - 1, run.size + 1⟩
    else run

/-- Extends a run to the end, at most by some lines. -/
def extendEnd (c : Comparison) : Nat → Run → Run
  | 0, run => run
  | room + 1, run =>
    if c.agree (run.before + run.size) (run.after + run.size) then
      c.extendEnd room { run with size := run.size + 1 }
    else run

/-- The longest common run of two ranges. -/
def longest (c : Comparison) (i₁ i₂ j₁ j₂ : Nat) : Run :=
  let run := c.longestStrict i₁ i₂ j₁ j₂
  let run := c.extendFront (min (run.before - i₁) (run.after - j₁)) run
  c.extendEnd (min (i₂ - (run.before + run.size)) (j₂ - (run.after + run.size))) run

/-- The common runs of two ranges, in order; the first number bounds the lines of a range. -/
def runs (c : Comparison) : Nat → Nat → Nat → Nat → Nat → List Run
  | 0, _, _, _, _ => []
  | fuel + 1, i₁, i₂, j₁, j₂ =>
    let run := c.longest i₁ i₂ j₁ j₂
    if run.size == 0 then []
    else
      (if i₁ < run.before && j₁ < run.after then c.runs fuel i₁ run.before j₁ run.after else []) ++
      run ::
      (if run.before + run.size < i₂ && run.after + run.size < j₂ then
        c.runs fuel (run.before + run.size) i₂ (run.after + run.size) j₂
      else [])

end Comparison

/-- Joins runs that follow each other without a gap. -/
def joinRuns : List Run → List Run
  | [] => []
  | run :: rest =>
    match joinRuns rest with
    | [] => [run]
    | next :: more =>
      if run.before + run.size == next.before && run.after + run.size == next.after then
        { run with size := run.size + next.size } :: more
      else run :: next :: more

/-- A range of lines of the first text and the range of the second one that takes its place. -/
structure Change where
  /-- Whether both ranges hold the same lines. -/
  same : Bool
  before₁ : Nat
  before₂ : Nat
  after₁ : Nat
  after₂ : Nat
  deriving DecidableEq, Inhabited, Repr

/-- What lies between common runs, and the runs themselves, from two places to the ends. -/
def changesFrom (i j iEnd jEnd : Nat) : List Run → List Change
  | [] => if i < iEnd || j < jEnd then [⟨false, i, iEnd, j, jEnd⟩] else []
  | run :: rest =>
    (if i < run.before || j < run.after then [⟨false, i, run.before, j, run.after⟩] else []) ++
      ⟨true, run.before, run.before + run.size, run.after, run.after + run.size⟩ ::
        changesFrom (run.before + run.size) (run.after + run.size) iEnd jEnd rest

/-- The number of common lines that are shown around a difference. -/
def context : Nat := 3

/-- The last lines of a common range. -/
def Change.tail (c : Change) : Change :=
  { c with before₁ := max c.before₁ (c.before₂ - context), after₁ := max c.after₁ (c.after₂ - context) }

/-- The first lines of a common range. -/
def Change.head (c : Change) : Change :=
  { c with before₂ := min c.before₂ (c.before₁ + context), after₂ := min c.after₂ (c.after₁ + context) }

/-- Cuts a list of changes within its long common ranges. -/
def groupsFrom (group : List Change) : List Change → List (List Change)
  | [] => [group]
  | c :: rest =>
    if c.same && 2 * context < c.before₂ - c.before₁ then
      (group ++ [c.head]) :: groupsFrom [c.tail] rest
    else groupsFrom (group ++ [c]) rest

/-- Whether a group shows a difference. -/
def showsDifference (group : List Change) : Bool :=
  group.any fun c => !c.same

/-- Applies a function to the last element. -/
def mapLast {α : Type} (f : α → α) (xs : List α) : List α :=
  match xs.getLast? with
  | some x => xs.dropLast ++ [f x]
  | none => []

/-- The groups of changes that are shown. -/
def groups (changes : List Change) : List (List Change) :=
  let trimmed :=
    match changes with
    | c :: rest => (if c.same then c.tail else c) :: rest
    | [] => []
  (groupsFrom [] (mapLast (fun c => if c.same then c.head else c) trimmed)).filter showsDifference

/-- A range of lines: its first line, counted from one, and its length if it is not one. -/
def rangeText (first last : Nat) : String :=
  let length := last - first
  if length == 1 then toString (first + 1)
  else toString (if length == 0 then first else first + 1) ++ "," ++ toString length

/-- The text of a group. -/
def groupText (c : Comparison) (group : List Change) : String :=
  let first := group.headD default
  let last := group.getLastD default
  let removed (d : Change) := (c.before.toList.drop d.before₁).take (d.before₂ - d.before₁)
  let added (d : Change) := (c.after.toList.drop d.after₁).take (d.after₂ - d.after₁)
  "@@ -" ++ rangeText first.before₁ last.before₂ ++ " +" ++ rangeText first.after₁ last.after₂ ++
    " @@\n" ++
    String.join (group.map fun d =>
      if d.same then String.join ((removed d).map (" " ++ ·))
      else String.join ((removed d).map ("-" ++ ·) ++ (added d).map ("+" ++ ·)))

end Diff

/-- The differences between two versions of a file; empty if there are none. -/
def diff (before after : String) (path : String) : String :=
  let c := Diff.Comparison.ofLines (textLinesWithBreaks before).toArray
    (textLinesWithBreaks after).toArray
  let runs := Diff.joinRuns (c.runs (c.before.size + 1) 0 c.before.size 0 c.after.size)
  let groups := Diff.groups (Diff.changesFrom 0 0 c.before.size c.after.size runs)
  if groups.isEmpty then ""
  else "--- a/" ++ path ++ "\n+++ b/" ++ path ++ "\n" ++ String.join (groups.map (Diff.groupText c))

end ProbeWeave.Text
