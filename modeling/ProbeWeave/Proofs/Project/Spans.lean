import Mathlib.Data.List.Pairwise
import ProbeWeave.Proofs.Project.Loaded
import ProbeWeave.Proofs.Syntax.Layout

/-! # The lines of definitions

The functions of a module and the methods of its classes lie on separate runs of lines, in the order
of the text. In front of a statement of the module or of one of its classes there is no line inside
of such a run.
-/

namespace ProbeWeave.Project

open Syntax Weaving

theorem opensScope_of_isFunction {s : Stmt} (function : isFunction s = true) :
    s.opensScope = true := by
  cases s <;> first | rfl | cases function

/-- Statements of a list that stand on lines one after the other. -/
theorem apart_of_lie {first last : Nat} {body : List Stmt} (lie : Lie first last body)
    {s t : Stmt} (inBody : s ∈ body) (inBody' : t ∈ body) : s = t ∨ Precedes s t ∨ Precedes t s := by
  by_cases same : s = t
  · exact .inl same
  · have either : Std.Symm fun s t => Precedes s t ∨ Precedes t s := ⟨fun _ _ => Or.symm⟩
    have apart := lie.ordered.imp (S := fun s t => Precedes s t ∨ Precedes t s) .inl
    exact .inr (apart.forall inBody inBody' same)

/-- The definitions that a statement is or holds lie on its lines. -/
theorem inside_of_mem_indexed {s : Stmt} (nested : Nested s) (upright : firstLine s ≤ s.lines.last)
    {x : Option String × Stmt} (held : x ∈ indexed [s]) :
    s.opensScope = true ∧ x.2.opensScope = true ∧ firstLine s ≤ firstLine x.2 ∧
      firstLine x.2 ≤ x.2.lines.last ∧ x.2.lines.last ≤ s.lines.last := by
  rw [indexed, List.flatMap_singleton] at held
  cases s with
  | functionDef =>
    obtain rfl := List.mem_singleton.mp held
    exact ⟨rfl, rfl, Nat.le_refl _, upright, Nat.le_refl _⟩
  | classDef lines name bases keywords body decorators =>
    obtain ⟨t, member, rfl⟩ := List.mem_map.mp held
    obtain ⟨inBody, function⟩ := List.mem_filter.mp member
    have inside := nested.inside t inBody
    have above := firstLine_le (.classDef lines name bases keywords body decorators)
    refine ⟨rfl, opensScope_of_isFunction function, ?_, inside.2.1, inside.2.2⟩
    exact Nat.le_trans above inside.1
  | _ => cases held

variable {last : Nat} {body : List Stmt}

theorem mem_indexed {x : Option String × Stmt} :
    x ∈ indexed body ↔ ∃ s ∈ body, x ∈ indexed [s] := by
  simp [indexed]

theorem inside_of_mem (lie : Lie 1 last body) (nested : ∀ s ∈ body, Nested s)
    {s : Stmt} (member : s ∈ body) {x : Option String × Stmt} (held : x ∈ indexed [s]) :
    s.opensScope = true ∧ x.2.opensScope = true ∧ firstLine s ≤ firstLine x.2 ∧
      firstLine x.2 ≤ x.2.lines.last ∧ x.2.lines.last ≤ s.lines.last :=
  inside_of_mem_indexed (nested s member) (lie.inside s member).2.1 held

/-- Definitions lie on lines of the module. -/
theorem bounds_of_mem_indexed (lie : Lie 1 last body) (nested : ∀ s ∈ body, Nested s)
    {x : Option String × Stmt} (held : x ∈ indexed body) :
    1 ≤ firstLine x.2 ∧ firstLine x.2 ≤ x.2.lines.last ∧ x.2.lines.last ≤ last := by
  obtain ⟨s, member, held⟩ := mem_indexed.mp held
  obtain ⟨-, -, below, upright, above⟩ := inside_of_mem lie nested member held
  have bounds := lie.inside s member
  omega

/-- The definitions of a module stand on lines one after the other. -/
theorem pairwise_indexed (lie : Lie 1 last body) (nested : ∀ s ∈ body, Nested s) :
    (indexed body).Pairwise fun x y => x.2.lines.last < firstLine y.2 := by
  have each (s : Stmt) (member : s ∈ body) :
      (indexed [s]).Pairwise fun x y => x.2.lines.last < firstLine y.2 := by
    rw [indexed, List.flatMap_singleton]
    cases s with
    | functionDef => exact List.pairwise_singleton _ _
    | classDef lines name bases keywords body decorators =>
      have lie : Lie lines.first lines.last body := nested _ member
      refine List.pairwise_map.mpr (List.pairwise_filter.mpr (lie.ordered.imp ?_))
      intro s t precedes function _
      exact precedes.2 (.inl (opensScope_of_isFunction function))
    | _ => exact .nil
  refine List.pairwise_flatMap.mpr ⟨fun s member => ?_, ?_⟩
  · simpa [indexed] using each s member
  · refine lie.ordered.imp_of_mem fun {s t} inBody inBody' precedes x inFirst y inSecond => ?_
    obtain ⟨scope, -, -, -, ended⟩ :=
      inside_of_mem lie nested inBody (by simpa [indexed] using inFirst)
    obtain ⟨-, -, begun, -, -⟩ :=
      inside_of_mem lie nested inBody' (by simpa [indexed] using inSecond)
    have beyond := precedes.2 (.inl scope)
    omega

/-! ### Lines that are inside of no definition -/

/-- Whether no definition begins in front of a line and reaches it. -/
def Clear (body : List Stmt) (line : Nat) : Prop :=
  ∀ x ∈ indexed body, line ≤ firstLine x.2 ∨ x.2.lines.last < line

/-- A line of a statement is inside of no other statement's definitions. -/
theorem clear_of_inside (lie : Lie 1 last body) (nested : ∀ s ∈ body, Nested s) {s : Stmt}
    (member : s ∈ body) {line : Nat} (begun : firstLine s ≤ line) (ended : line ≤ s.lines.last)
    (own : Clear [s] line) : Clear body line := by
  intro x held
  obtain ⟨t, inBody, held⟩ := mem_indexed.mp held
  obtain ⟨scope, -, below, -, above⟩ := inside_of_mem lie nested inBody held
  rcases apart_of_lie lie member inBody with rfl | precedes | precedes
  · exact own x held
  · have beyond := precedes.1
    omega
  · have beyond := precedes.2 (.inl scope)
    omega

/-- The first line of a statement of the module. -/
theorem clear_firstLine (lie : Lie 1 last body) (nested : ∀ s ∈ body, Nested s) {s : Stmt}
    (member : s ∈ body) : Clear body (firstLine s) := by
  refine clear_of_inside lie nested member (le_refl _) (lie.inside s member).2.1 fun x held => ?_
  exact .inl (inside_of_mem lie nested member held).2.2.1

/-- The first line of a statement of a class. -/
theorem clear_firstLine_of_class (lie : Lie 1 last body) (nested : ∀ s ∈ body, Nested s)
    {lines : Lines} {name : String} {bases : List Expr} {keywords : List Keyword}
    {inner : List Stmt} {decorators : List Decorator}
    (member : .classDef lines name bases keywords inner decorators ∈ body) {s : Stmt}
    (inClass : s ∈ inner) : Clear body (firstLine s) := by
  have within : Lie lines.first lines.last inner := nested _ member
  have bounds := within.inside s inClass
  have above := firstLine_le (.classDef lines name bases keywords inner decorators)
  refine clear_of_inside lie nested member (Nat.le_trans above bounds.1)
    (Nat.le_trans bounds.2.1 bounds.2.2) fun x held => ?_
  replace held : x ∈ (inner.filter isFunction).map (some name, ·) := by
    simpa [indexed] using held
  obtain ⟨t, method, rfl⟩ := List.mem_map.mp held
  obtain ⟨inClass', function⟩ := List.mem_filter.mp method
  rcases apart_of_lie within inClass inClass' with rfl | precedes | precedes
  · exact .inl (le_refl _)
  · have beyond := precedes.1
    dsimp only
    omega
  · exact .inr (precedes.2 (.inl (opensScope_of_isFunction function)))

end ProbeWeave.Project
