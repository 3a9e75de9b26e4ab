import Mathlib.Data.List.Forall2
import ProbeWeave.Proofs.Syntax.Blocks

/-! # Paths of control

A path through statements is what happens on it, in order, and how control leaves at its end. A
branch may go either way, a loop may turn any number of times, and no exception is raised, so that
handlers are never entered and a `raise` is on no path.

Which events count is left open. `Alike` relates paths with events of two kinds, and every way to
put paths together preserves it, if the relation between their events adds up.
-/

namespace ProbeWeave.Syntax

/-- How control leaves statements: behind their end, or by a statement that goes elsewhere. -/
inductive Exit where
  | fell
  | returned
  | broke
  | continued
  deriving DecidableEq, Repr

/-- The paths through statements, each with what happens on it and how it leaves. -/
def Paths (ε : Type) : Type :=
  List ε → Exit → Prop

namespace Paths

variable {ε δ : Type}

/-- Nothing happens before control leaves. -/
def quiet (x : Exit) : Paths ε :=
  fun es y => es = [] ∧ y = x

/-- Something happens and control goes on. -/
def event (e : ε) : Paths ε :=
  fun es x => es = [e] ∧ x = .fell

/-- One after the other, unless the first leaves elsewhere. -/
def seq (A B : Paths ε) : Paths ε :=
  fun es x => (A es x ∧ x ≠ .fell) ∨ ∃ as bs, A as .fell ∧ B bs x ∧ es = as ++ bs

/-- One of several. -/
def choice (As : List (Paths ε)) : Paths ε :=
  fun es x => ∃ A ∈ As, A es x

/-- The last one is passed in any case, and where it leaves for counts. -/
def protect (A final : Paths ε) : Paths ε :=
  fun es x => ∃ as bs y z, A as y ∧ final bs z ∧ es = as ++ bs ∧ x = if z = .fell then y else z

/-- A loop turns until it ends, which its `else` follows, or until it is left. -/
inductive Loop (body otherwise : Paths ε) : List ε → Exit → Prop where
  | ended {es : List ε} {x : Exit} (last : otherwise es x) : Loop body otherwise es x
  | broken {es : List ε} (left : body es .broke) : Loop body otherwise es .fell
  | returned {es : List ε} (left : body es .returned) : Loop body otherwise es .returned
  | turned {as bs : List ε} {x y : Exit} (turn : body as x) (on : x = .fell ∨ x = .continued)
      (rest : Loop body otherwise bs y) : Loop body otherwise (as ++ bs) y

/-- The paths through a loop with its two blocks. -/
def ofLoop : List (Paths ε) → Paths ε
  | [body, otherwise] => Loop body otherwise
  | _ => quiet .fell

/-- The paths through a `try` with its blocks, of which the handlers are last. -/
def ofTry : List (Paths ε) → Paths ε
  | body :: otherwise :: final :: _ => protect (seq body otherwise) final
  | _ => quiet .fell

theorem quiet_seq (A : Paths ε) : seq (quiet .fell) A = A := by
  funext es x
  by_cases fell : x = .fell <;> simp [seq, quiet, fell]

theorem seq_quiet (A : Paths ε) : seq A (quiet .fell) = A := by
  funext es x
  by_cases fell : x = .fell <;> simp [seq, quiet, fell]

theorem seq_assoc (A B C : Paths ε) : seq (seq A B) C = seq A (seq B C) := by
  funext es x
  refine propext ⟨?_, ?_⟩
  · rintro (⟨⟨left, elsewhere⟩ | ⟨as, bs, runA, runB, rfl⟩, other⟩ | ⟨_, cs, runAB, runC, rfl⟩)
    · exact .inl ⟨left, elsewhere⟩
    · exact .inr ⟨as, bs, runA, .inl ⟨runB, other⟩, rfl⟩
    · rcases runAB with ⟨-, elsewhere⟩ | ⟨as, bs, runA, runB, rfl⟩
      · exact absurd rfl elsewhere
      · exact .inr ⟨as, bs ++ cs, runA, .inr ⟨bs, cs, runB, runC, rfl⟩, List.append_assoc ..⟩
  · rintro (⟨left, elsewhere⟩ | ⟨as, _, runA, ⟨runB, other⟩ | ⟨bs, cs, runB, runC, rfl⟩, rfl⟩)
    · exact .inl ⟨.inl ⟨left, elsewhere⟩, elsewhere⟩
    · exact .inl ⟨.inr ⟨as, _, runA, runB, rfl⟩, other⟩
    · exact .inr ⟨as ++ bs, cs, .inr ⟨as, bs, runA, runB, rfl⟩, runC, (List.append_assoc ..).symm⟩

theorem event_seq {e : ε} {A : Paths ε} {es : List ε} {x : Exit} :
    seq (event e) A es x ↔ ∃ as, A as x ∧ es = e :: as := by
  constructor
  · rintro (⟨⟨-, rfl⟩, elsewhere⟩ | ⟨_, as, ⟨rfl, -⟩, run, rfl⟩)
    · exact absurd rfl elsewhere
    · exact ⟨as, run, rfl⟩
  · rintro ⟨as, run, rfl⟩
    exact .inr ⟨[e], as, ⟨rfl, rfl⟩, run, rfl⟩

theorem seq_event {e : ε} {A : Paths ε} {es : List ε} {x : Exit} :
    seq A (event e) es x ↔ ∃ as, A as x ∧ es = if x = .fell then as ++ [e] else as := by
  constructor
  · rintro (⟨left, elsewhere⟩ | ⟨as, _, run, ⟨rfl, rfl⟩, rfl⟩)
    · exact ⟨es, left, (if_neg elsewhere).symm⟩
    · exact ⟨as, run, (if_pos rfl).symm⟩
  · rintro ⟨as, run, rfl⟩
    by_cases fell : x = .fell
    · subst fell
      exact .inr ⟨as, [e], run, ⟨rfl, rfl⟩, if_pos rfl⟩
    · rw [if_neg fell]
      exact .inl ⟨run, fell⟩

/-! ## Paths with related events -/

/-- A relation between lists of events that adds up. -/
structure Additive (ρ : List ε → List δ → Prop) : Prop where
  nil : ρ [] []
  append : ∀ {as bs : List ε} {cs ds : List δ}, ρ as cs → ρ bs ds → ρ (as ++ bs) (cs ++ ds)

/-- Every path has one that leaves alike and whose events are related. -/
def Follows (ρ : List ε → List δ → Prop) (A : Paths ε) (B : Paths δ) : Prop :=
  ∀ es x, A es x → ∃ ds, B ds x ∧ ρ es ds

section Follows

variable {ρ : List ε → List δ → Prop} (additive : Additive ρ)

include additive

theorem Additive.flip : Additive fun ds es => ρ es ds :=
  ⟨additive.nil, additive.append⟩

theorem Follows.quiet (x : Exit) : Follows ρ (quiet x) (quiet x) := by
  rintro es _ ⟨rfl, rfl⟩
  exact ⟨[], ⟨rfl, rfl⟩, additive.nil⟩

theorem Follows.seq {A B : Paths ε} {A' B' : Paths δ} (first : Follows ρ A A')
    (second : Follows ρ B B') : Follows ρ (seq A B) (seq A' B') := by
  rintro es x (⟨left, elsewhere⟩ | ⟨as, bs, runA, runB, rfl⟩)
  · obtain ⟨ds, run, related⟩ := first es x left
    exact ⟨ds, .inl ⟨run, elsewhere⟩, related⟩
  · obtain ⟨cs, runA', related⟩ := first as _ runA
    obtain ⟨ds, runB', related'⟩ := second bs x runB
    exact ⟨cs ++ ds, .inr ⟨cs, ds, runA', runB', rfl⟩, additive.append related related'⟩

theorem Follows.protect {A final : Paths ε} {A' final' : Paths δ} (first : Follows ρ A A')
    (second : Follows ρ final final') : Follows ρ (protect A final) (protect A' final') := by
  rintro _ _ ⟨as, bs, y, z, runA, runFinal, rfl, rfl⟩
  obtain ⟨cs, runA', related⟩ := first as y runA
  obtain ⟨ds, runFinal', related'⟩ := second bs z runFinal
  exact ⟨cs ++ ds, ⟨cs, ds, y, z, runA', runFinal', rfl, rfl⟩, additive.append related related'⟩

theorem Follows.loop {body otherwise : Paths ε} {body' otherwise' : Paths δ}
    (turns : Follows ρ body body') (last : Follows ρ otherwise otherwise') :
    Follows ρ (Loop body otherwise) (Loop body' otherwise') := by
  intro es x run
  induction run with
  | ended ends =>
    obtain ⟨ds, run, related⟩ := last _ _ ends
    exact ⟨ds, .ended run, related⟩
  | broken left =>
    obtain ⟨ds, run, related⟩ := turns _ _ left
    exact ⟨ds, .broken run, related⟩
  | returned left =>
    obtain ⟨ds, run, related⟩ := turns _ _ left
    exact ⟨ds, .returned run, related⟩
  | turned turn on _ ih =>
    obtain ⟨cs, run, related⟩ := turns _ _ turn
    obtain ⟨ds, rest, related'⟩ := ih
    exact ⟨cs ++ ds, .turned run on rest, additive.append related related'⟩

theorem Follows.ofLoop {As : List (Paths ε)} {Bs : List (Paths δ)}
    (each : List.Forall₂ (Follows ρ) As Bs) : Follows ρ (ofLoop As) (ofLoop Bs) := by
  rcases each with _ | ⟨turns, _ | ⟨last, _ | _⟩⟩
  case cons.cons.nil => exact .loop additive turns last
  all_goals exact .quiet additive .fell

theorem Follows.ofTry {As : List (Paths ε)} {Bs : List (Paths δ)}
    (each : List.Forall₂ (Follows ρ) As Bs) : Follows ρ (ofTry As) (ofTry Bs) := by
  rcases each with _ | ⟨body, _ | ⟨otherwise, _ | ⟨final, _⟩⟩⟩
  case cons.cons.cons => exact .protect additive (.seq additive body otherwise) final
  all_goals exact .quiet additive .fell

omit additive in
theorem Follows.choice {As : List (Paths ε)} {Bs : List (Paths δ)}
    (each : List.Forall₂ (Follows ρ) As Bs) : Follows ρ (choice As) (choice Bs) := by
  rintro es x ⟨A, member, run⟩
  induction each with
  | nil => cases member
  | cons first _ ih =>
    rcases List.mem_cons.mp member with rfl | member
    · obtain ⟨ds, run, related⟩ := first es x run
      exact ⟨ds, ⟨_, List.mem_cons_self, run⟩, related⟩
    · obtain ⟨ds, ⟨B, below, run⟩, related⟩ := ih member
      exact ⟨ds, ⟨B, .tail _ below, run⟩, related⟩

/-- The paths of each have paths of the other that leave alike and whose events are related. -/
structure Alike (ρ : List ε → List δ → Prop) (A : Paths ε) (B : Paths δ) : Prop where
  forth : Follows ρ A B
  back : Follows (fun ds es => ρ es ds) B A

theorem Alike.quiet (x : Exit) : Alike ρ (quiet x) (quiet x) :=
  ⟨.quiet additive x, .quiet additive.flip x⟩

theorem Alike.seq {A B : Paths ε} {A' B' : Paths δ} (first : Alike ρ A A') (second : Alike ρ B B') :
    Alike ρ (seq A B) (seq A' B') :=
  ⟨.seq additive first.forth second.forth, .seq additive.flip first.back second.back⟩

end Follows

end Paths

/-! ## Statements -/

variable {ε δ : Type}

namespace Stmt

open Paths

/-- The paths through a statement, when those through its blocks are given. -/
def control (s : Stmt) (blocks : List (Paths ε)) : Paths ε :=
  match s with
  | forLoop .. | whileLoop .. => ofLoop blocks
  | branch .. | withBlock .. => choice blocks
  | matchBlock .. => choice (quiet .fell :: blocks)
  | tryBlock .. => ofTry blocks
  | raise .. => choice []
  | returned .. => quiet .returned
  | breakLoop _ => quiet .broke
  | continueLoop _ => quiet .continued
  | _ => quiet .fell

/-- A statement is passed alike when its blocks are. -/
theorem follows_control {ρ : List ε → List δ → Prop} (additive : Additive ρ) (s : Stmt)
    {As : List (Paths ε)} {Bs : List (Paths δ)} (each : List.Forall₂ (Follows ρ) As Bs) :
    Follows ρ (s.control As) (s.control Bs) := by
  cases s with
  | forLoop | whileLoop => exact .ofLoop additive each
  | branch | withBlock => exact .choice each
  | matchBlock => exact .choice (.cons (.quiet additive .fell) each)
  | tryBlock => exact .ofTry additive each
  | raise => exact .choice .nil
  | returned => exact .quiet additive .returned
  | breakLoop => exact .quiet additive .broke
  | continueLoop => exact .quiet additive .continued
  | _ => exact .quiet additive .fell

theorem alike_control {ρ : List ε → List δ → Prop} (additive : Additive ρ) (s : Stmt)
    {As : List (Paths ε)} {Bs : List (Paths δ)} (each : List.Forall₂ (Alike ρ) As Bs) :
    Alike ρ (s.control As) (s.control Bs) where
  forth := follows_control additive s (each.imp fun _ _ alike => alike.forth)
  back := follows_control additive.flip s (each.flip.imp fun _ _ alike => alike.back)

theorem control_withBlocks (s : Stmt) (bodies : List (List Stmt)) :
    (s.withBlocks bodies).control = s.control (ε := ε) := by
  funext blocks
  fun_cases withBlocks s bodies <;> rfl

theorem control_withSlot (s : Stmt) (e : Expr) :
    (s.withSlot e).control = s.control (ε := ε) := by
  funext blocks
  fun_cases withSlot s e <;> rfl

/-- The paths through a block, on which some statements are events and others are passed. -/
def blockPaths (event? : Stmt → Option ε) (b : List Stmt) : Paths ε :=
  match b with
  | [] => quiet .fell
  | s :: rest =>
    seq
      (match event? s with
        | some e => event e
        | none => s.control (s.blocks.attach.map fun ⟨b, _⟩ => blockPaths event? b))
      (blockPaths event? rest)
termination_by sizeOf b
decreasing_by
  · have := sizeOf_lt_of_mem_blocks ‹_›
    simp only [List.cons.sizeOf_spec]; omega
  · simp only [List.cons.sizeOf_spec]; omega

/-- The paths through a statement. -/
def paths (event? : Stmt → Option ε) (s : Stmt) : Paths ε :=
  match event? s with
  | some e => event e
  | none => s.control (s.blocks.map (blockPaths event?))

section BlockPaths

variable (event? : Stmt → Option ε)

theorem blockPaths_nil : blockPaths event? [] = quiet .fell := by
  rw [blockPaths]

theorem blockPaths_cons (s : Stmt) (rest : List Stmt) :
    blockPaths event? (s :: rest) = seq (s.paths event?) (blockPaths event? rest) := by
  rw [blockPaths, paths]
  simp

theorem blockPaths_singleton (s : Stmt) : blockPaths event? [s] = s.paths event? := by
  rw [blockPaths_cons, blockPaths_nil, seq_quiet]

theorem blockPaths_append (b rest : List Stmt) :
    blockPaths event? (b ++ rest) = seq (blockPaths event? b) (blockPaths event? rest) := by
  induction b with
  | nil => rw [List.nil_append, blockPaths_nil, quiet_seq]
  | cons s b ih => rw [List.cons_append, blockPaths_cons, blockPaths_cons, ih, seq_assoc]

end BlockPaths

end Stmt

end ProbeWeave.Syntax
