import Mathlib.Data.List.Basic
import ProbeWeave.Syntax.Block

/-! # Statements with other blocks and slots

The blocks and the slot of a statement are apart: each can be replaced without a change to the other,
and only the last replacement counts. `block_induction` follows the blocks: what holds of a statement
once it holds of the statements of its blocks holds of all.
-/

namespace ProbeWeave.Syntax

namespace Stmt

theorem sizeOf_lt_of_mem_handlers {handlers : List Handler} {b : List Stmt}
    (member : b ∈ handlers.map Handler.body) : sizeOf b < sizeOf handlers := by
  obtain ⟨⟨type, name, body⟩, present, rfl⟩ := List.mem_map.mp member
  have := List.sizeOf_lt_of_mem present
  simp only [Handler.body, Handler.mk.sizeOf_spec] at this ⊢
  omega

theorem sizeOf_lt_of_mem_cases {cases : List Case} {b : List Stmt}
    (member : b ∈ cases.map Case.body) : sizeOf b < sizeOf cases := by
  obtain ⟨⟨shape, guard, body⟩, present, rfl⟩ := List.mem_map.mp member
  have := List.sizeOf_lt_of_mem present
  simp only [Case.body, Case.mk.sizeOf_spec] at this ⊢
  omega

theorem sizeOf_lt_of_mem_blocks {s : Stmt} {b : List Stmt} (member : b ∈ s.blocks) :
    sizeOf b < sizeOf s := by
  cases s <;> simp only [blocks, List.mem_cons, List.mem_append, List.not_mem_nil, or_false] at member <;>
  grind [→ sizeOf_lt_of_mem_handlers, → sizeOf_lt_of_mem_cases]

/-- What holds of a statement once it holds of the statements of its blocks holds of all. -/
theorem block_induction {motive : Stmt → Prop}
    (step : ∀ s, (∀ b ∈ s.blocks, ∀ x ∈ b, motive x) → motive s) (s : Stmt) : motive s := by
  refine step s fun b block x member => ?_
  have := sizeOf_lt_of_mem_blocks block
  have := List.sizeOf_lt_of_mem member
  exact block_induction step x
termination_by sizeOf s

theorem blocks_of_opensScope {s : Stmt} (scope : s.opensScope = true) : s.blocks = [] := by
  cases s <;> simp_all [opensScope, blocks]

/-- A statement without blocks stays as it is. -/
theorem withBlocks_nil {s : Stmt} (none : s.blocks = []) : s.withBlocks [] = s := by
  rw [← none, withBlocks_blocks]

theorem slot_of_opensScope {s : Stmt} (scope : s.opensScope = true) : s.slot? = none := by
  cases s <;> simp_all [opensScope, slot?]

/-- The statements of blocks are children or children of children. -/
theorem block_below {s x : Stmt} {b : List Stmt} (block : b ∈ s.blocks) (member : x ∈ b) :
    .stmt x ∈ s.children ∨ ∃ n ∈ s.children, .stmt x ∈ n.children := by
  cases s with
  | tryBlock lines isGroup body handlers otherwise final =>
    rcases List.mem_append.mp block with own | clause
    · simp only [List.mem_cons, List.not_mem_nil, or_false] at own
      rcases own with rfl | rfl | rfl <;> exact .inl (by simp [children, member])
    · obtain ⟨⟨type, name, body⟩, present, rfl⟩ := List.mem_map.mp clause
      exact .inr ⟨.handler (.mk type name body), by simp [children, present],
        by simpa [Node.children, Handler.body] using member⟩
  | matchBlock lines subject cases =>
    obtain ⟨⟨shape, guard, body⟩, present, rfl⟩ := List.mem_map.mp block
    exact .inr ⟨.matchCase (.mk shape guard body), by simp [children, present],
      by simpa [Node.children, Case.body] using member⟩
  | withBlock lines isAsync items body =>
    rw [List.mem_singleton.mp block] at member
    exact .inl (by simp [children, member])
  | forLoop | whileLoop | branch =>
    rcases List.mem_pair.mp block with rfl | rfl <;> exact .inl (by simp [children, member])
  | _ => cases block

/-! ## Replacing -/

theorem slot_withSlot {s : Stmt} {e : Expr} (slot : s.slot? = some e) (e' : Expr) :
    (s.withSlot e').slot? = some e' := by
  cases s with
  | returned | annotated | raise =>
    cases slot
    rfl
  | augmented lines target op value =>
    cases target with
    | name id use => rfl
    | _ => cases slot
  | withBlock lines isAsync items body =>
    cases items with
    | nil => cases slot
    | cons item items => rfl
  | expression | assign | branch | forLoop | matchBlock => rfl
  | _ => cases slot

theorem withSlot_withSlot (s : Stmt) (e e' : Expr) :
    (s.withSlot e).withSlot e' = s.withSlot e' := by
  fun_cases withSlot s e <;> simp_all [withSlot]

theorem blocks_withSlot (s : Stmt) (e : Expr) : (s.withSlot e).blocks = s.blocks := by
  fun_cases withSlot s e <;> rfl

/-- Clauses with other bodies have these bodies, and only the last replacement counts. -/
theorem zipWith_withBody {α : Type} {body : α → List Stmt} {withBody : α → List Stmt → α}
    (get : ∀ x b, body (withBody x b) = b) (last : ∀ x b c, withBody (withBody x b) c = withBody x c)
    {xs : List α} {bodies : List (List Stmt)} (fits : bodies.length = xs.length) :
    (xs.zipWith withBody bodies).map body = bodies ∧
      ∀ others, (xs.zipWith withBody bodies).zipWith withBody others =
        xs.zipWith withBody others := by
  induction xs generalizing bodies with
  | nil =>
    obtain rfl := List.length_eq_zero_iff.mp fits
    exact ⟨rfl, fun _ => rfl⟩
  | cons x xs ih =>
    match bodies, fits with
    | b :: bodies, fits =>
      obtain ⟨bodiesEq, lastEq⟩ := ih (by simpa using fits)
      refine ⟨by simp [get, bodiesEq], fun others => ?_⟩
      cases others with
      | nil => rfl
      | cons c others => simp [last, lastEq]

theorem zipWith_handlers {handlers : List Handler} {bodies : List (List Stmt)}
    (fits : bodies.length = handlers.length) :
    (handlers.zipWith Handler.withBody bodies).map Handler.body = bodies ∧
      ∀ others, (handlers.zipWith Handler.withBody bodies).zipWith Handler.withBody others =
        handlers.zipWith Handler.withBody others :=
  zipWith_withBody (fun x _ => by cases x; rfl) (fun x _ _ => by cases x; rfl) fits

theorem zipWith_cases {cases : List Case} {bodies : List (List Stmt)}
    (fits : bodies.length = cases.length) :
    (cases.zipWith Case.withBody bodies).map Case.body = bodies ∧
      ∀ others, (cases.zipWith Case.withBody bodies).zipWith Case.withBody others =
        cases.zipWith Case.withBody others :=
  zipWith_withBody (fun x _ => by cases x; rfl) (fun x _ _ => by cases x; rfl) fits

theorem exists_three {α : Type} {xs : List α} {n : Nat} (fits : xs.length = n) (long : 3 ≤ n) :
    ∃ a b c rest, xs = a :: b :: c :: rest := by
  subst fits
  rcases xs with _ | ⟨a, _ | ⟨b, _ | ⟨c, rest⟩⟩⟩
  · simp at long
  · simp at long
  · simp at long
  · exact ⟨a, b, c, rest, rfl⟩

theorem blocks_withBlocks {s : Stmt} {bodies : List (List Stmt)}
    (fits : bodies.length = s.blocks.length) : (s.withBlocks bodies).blocks = bodies := by
  cases s with
  | tryBlock lines isGroup body handlers otherwise final =>
    obtain ⟨b₁, b₂, b₃, rest, rfl⟩ := exists_three fits (by simp [blocks])
    simp only [withBlocks, blocks]
    rw [(zipWith_handlers (by simpa [blocks] using fits)).1]
    rfl
  | matchBlock lines subject cases => exact (zipWith_cases (by simpa [blocks] using fits)).1
  | forLoop | whileLoop | branch =>
    obtain ⟨b₁, b₂, rfl⟩ := List.length_eq_two.mp fits
    rfl
  | withBlock =>
    obtain ⟨b, rfl⟩ := List.length_eq_one_iff.mp fits
    rfl
  | _ =>
    obtain rfl := List.length_eq_zero_iff.mp fits
    rfl

theorem slot_withBlocks (s : Stmt) (bodies : List (List Stmt)) :
    (s.withBlocks bodies).slot? = s.slot? := by
  fun_cases withBlocks s bodies <;> first | rfl | (rename_i items _ _; cases items <;> rfl)

theorem withBlocks_withBlocks {s : Stmt} {bodies others : List (List Stmt)}
    (fits : bodies.length = s.blocks.length) (others_fit : others.length = s.blocks.length) :
    (s.withBlocks bodies).withBlocks others = s.withBlocks others := by
  cases s with
  | tryBlock lines isGroup body handlers otherwise final =>
    obtain ⟨_, _, _, rest, rfl⟩ := exists_three fits (by simp [blocks])
    obtain ⟨_, _, _, more, rfl⟩ := exists_three others_fit (by simp [blocks])
    simp only [withBlocks]
    rw [(zipWith_handlers (by simpa [blocks] using fits)).2]
  | matchBlock lines subject cases =>
    simp only [withBlocks]
    rw [(zipWith_cases (by simpa [blocks] using fits)).2]
  | forLoop | whileLoop | branch =>
    obtain ⟨_, _, rfl⟩ := List.length_eq_two.mp fits
    obtain ⟨_, _, rfl⟩ := List.length_eq_two.mp others_fit
    rfl
  | withBlock =>
    obtain ⟨_, rfl⟩ := List.length_eq_one_iff.mp fits
    obtain ⟨_, rfl⟩ := List.length_eq_one_iff.mp others_fit
    rfl
  | _ =>
    obtain rfl := List.length_eq_zero_iff.mp fits
    rfl

/-- The slot and the blocks are apart. -/
theorem withSlot_withBlocks {s : Stmt} {bodies : List (List Stmt)}
    (fits : bodies.length = s.blocks.length) (e : Expr) :
    (s.withSlot e).withBlocks bodies = (s.withBlocks bodies).withSlot e := by
  cases s with
  | tryBlock lines isGroup body handlers otherwise final =>
    match bodies, fits with
    | _ :: _ :: _ :: _, _ => rfl
  | matchBlock => rfl
  | forLoop | whileLoop | branch =>
    match bodies, fits with
    | [_, _], _ => rfl
  | withBlock lines isAsync items body =>
    match items, bodies, fits with
    | [], [_], _ => rfl
    | _ :: _, [_], _ => rfl
  | augmented lines target op value =>
    obtain rfl := List.length_eq_zero_iff.mp fits
    cases target <;> rfl
  | returned lines value | raise lines value cause =>
    obtain rfl := List.length_eq_zero_iff.mp fits
    cases value <;> rfl
  | annotated lines target note value simple =>
    obtain rfl := List.length_eq_zero_iff.mp fits
    cases value <;> rfl
  | _ =>
    obtain rfl := List.length_eq_zero_iff.mp fits
    rfl

end Stmt

end ProbeWeave.Syntax
