import ProbeWeave.Proofs.Hoisting.Slot
import ProbeWeave.Proofs.Syntax.Blocks
import ProbeWeave.Weaving.Body

/-! # Marking and rebuilding, statement by statement

Marking treats all compound statements alike: it marks the statement itself and then its blocks, one
after the other, and rebuilding puts the rebuilt blocks back.
-/

namespace ProbeWeave.Weaving

open Syntax Supply Hoisting

namespace Timing

variable (timing : Timing)

/-- Marks blocks one after the other. -/
def markBlocks : List (List Stmt) → Mapping → List (List Marked) × Mapping
  | [], m => ([], m)
  | b :: rest, m =>
    let (first, m) := timing.markBlock b m
    let (rest, m) := markBlocks rest m
    (first :: rest, m)

theorem length_markBlocks (bs : List (List Stmt)) (m : Mapping) :
    (timing.markBlocks bs m).1.length = bs.length := by
  induction bs generalizing m with
  | nil => rfl
  | cons b rest ih => simp only [markBlocks, List.length_cons, ih]

theorem markHandlers_eq (handlers : List Handler) (m : Mapping) :
    timing.markHandlers handlers m = timing.markBlocks (handlers.map Handler.body) m := by
  induction handlers generalizing m with
  | nil => rw [markHandlers, List.map_nil, markBlocks]
  | cons h rest ih =>
    cases h
    simp only [markHandlers, ih, List.map_cons, Handler.body, markBlocks]

theorem markCases_eq (cases : List Case) (m : Mapping) :
    timing.markCases cases m = timing.markBlocks (cases.map Case.body) m := by
  induction cases generalizing m with
  | nil => rw [markCases, List.map_nil, markBlocks]
  | cons c rest ih =>
    cases c
    simp only [markCases, ih, List.map_cons, Case.body, markBlocks]

theorem markStmt_of_opensScope {s : Stmt} (scope : s.opensScope = true) (m : Mapping) :
    timing.markStmt s m = (.mk s ⟨none, [], none⟩ [], m) := by
  cases s <;> first | (simp [Stmt.opensScope] at scope; done) | rw [markStmt]

/-- A statement that opens no scope is marked itself and then its blocks are. -/
theorem markStmt_eq {s : Stmt} (inside : s.opensScope = false) (m : Mapping) :
    timing.markStmt s m =
      let (mark, m) := timing.mark s m
      let (blocks, m) := timing.markBlocks s.blocks m
      (.mk s mark blocks, m) := by
  cases s <;> first
    | (simp [Stmt.opensScope] at inside; done)
    | simp [markStmt, Stmt.blocks, markBlocks, markHandlers_eq, markCases_eq]

end Timing

/-! ## What a mark holds -/

/-- The temporary through which a site returns a call. -/
def StatementSite.temporary? (site : StatementSite) : Option String :=
  match site.kind with
  | .returned temporary => some temporary
  | _ => none

namespace Mark

/-- The temporaries of a mark in the order in which they were handed out. -/
def temporaries (mark : Mark) : List String :=
  (mark.site.bind StatementSite.temporary?).toList ++ mark.hoists.map Hoist.temporary

/-- The probes of a mark. -/
def probes (mark : Mark) : List String :=
  mark.hoists.map Hoist.probe ++ (mark.site.map StatementSite.probe).toList

end Mark

namespace Timing

variable (timing : Timing)

/-- Only the site of a `return` has a temporary, and it is the next one of the supply. -/
theorem callSite?_temporary (s : Stmt) (supply : Supply) :
    Issued supply ((timing.callSite? s supply).1.bind StatementSite.temporary?).toList
        (timing.callSite? s supply).2 ∧
      (∀ site, (timing.callSite? s supply).1 = some site → site.temporary?.isSome = true →
        ∃ lines e, s = .returned lines (some e)) ∧
      (s.slot? = none → timing.callSite? s supply = (none, supply)) := by
  unfold callSite?
  split
  · exact ⟨.refl _, by simp, fun _ => rfl⟩
  · rename_i probe timed
    have slotted : s.slot? ≠ none := by
      intro slotless
      simp [slotless, probeOfValue] at timed
    split
    · exact ⟨.refl _, by simp [StatementSite.temporary?], fun slotless => absurd slotless slotted⟩
    · exact ⟨.refl _, by simp [StatementSite.temporary?], fun slotless => absurd slotless slotted⟩
    · exact ⟨.refl _, by simp [StatementSite.temporary?], fun slotless => absurd slotless slotted⟩
    · rename_i lines value
      obtain ⟨e, rfl⟩ := Option.ne_none_iff_exists'.mp slotted
      exact ⟨.next _, fun _ _ _ => ⟨lines, e, rfl⟩, fun slotless => absurd slotless slotted⟩
    · exact ⟨.refl _, by simp, fun slotless => absurd slotless slotted⟩

/-- What a mark holds for a statement, whose temporaries come from a supply. -/
structure Holds (s : Stmt) (mark : Mark) (before after : Supply) : Prop where
  issued : Issued before mark.temporaries after
  returns : ∀ site, mark.site = some site → site.temporary?.isSome = true →
    ∃ lines e, s = .returned lines (some e)
  slotless : s.slot? = none → mark.slot = none ∧ mark.hoists = []
  slotted : ∀ e, s.slot? = some e → ∃ e' ms supply, mark.slot = some e' ∧
    mark.hoists = hoistsOf ms ∧ Walked e e' ms supply after

/-- A definition has no slot, and its mark holds nothing. -/
theorem Holds.of_opensScope {s : Stmt} (scope : s.opensScope = true) (supply : Supply) :
    Holds s ⟨none, [], none⟩ supply supply where
  issued := .refl supply
  returns := fun _ marked => nomatch marked
  slotless := fun _ => ⟨rfl, rfl⟩
  slotted := fun _ slot => nomatch (Stmt.slot_of_opensScope scope).symm.trans slot

/-- The site of a statement is that of its value or that of a loop. -/
theorem mark_site (s : Stmt) (m : Mapping) :
    ∃ loop : Option StatementSite, (∀ own ∈ loop, own.kind = .loop) ∧
      (timing.mark s m).1.site = (timing.callSite? s m.supply).1.or loop := by
  by_cases timed : (s.isLoop && timing.callsTimed (loopStatements s)) = true
  · refine ⟨some ⟨.loop, (m.registry.addLoop timing.routine s.lines.first).1.name⟩, ?_, ?_⟩
    · rintro _ ⟨⟩
      rfl
    · simp only [mark, timed, if_true]
  · refine ⟨none, nofun, ?_⟩
    simp only [mark, timed, Bool.false_eq_true, if_false]

theorem mark_temporary (s : Stmt) (m : Mapping) :
    (timing.mark s m).1.site.bind StatementSite.temporary? =
      (timing.callSite? s m.supply).1.bind StatementSite.temporary? := by
  obtain ⟨loop, isLoop, site⟩ := timing.mark_site s m
  rw [site]
  cases (timing.callSite? s m.supply).1 with
  | none =>
    cases loop with
    | none => rfl
    | some own =>
      have kind := isLoop own rfl
      simp [StatementSite.temporary?, kind]
  | some own => rfl

/-- The mark of a statement holds the calls moved out of its slot and what stays there. -/
theorem mark_holds (s : Stmt) (m : Mapping) :
    Holds s (timing.mark s m).1 m.supply (timing.mark s m).2.supply := by
  obtain ⟨issued, returns, slotless⟩ := timing.callSite?_temporary s m.supply
  have own := timing.mark_temporary s m
  have returned : ∀ site, (timing.mark s m).1.site = some site → site.temporary?.isSome = true →
      ∃ lines e, s = .returned lines (some e) := by
    intro found marked temporary
    rw [marked, Option.bind_some] at own
    obtain ⟨t, isTemporary⟩ := Option.isSome_iff_exists.mp temporary
    rw [isTemporary, eq_comm, Option.bind_eq_some_iff] at own
    obtain ⟨site, call, isTemporary⟩ := own
    exact returns site call (Option.isSome_iff_exists.mpr ⟨t, isTemporary⟩)
  -- The fields of the mark and the supply behind it, as they are defined.
  have walked : (timing.mark s m).1.slot =
        (hoistSlot timing.probeOf (timing.callSite? s m.supply).1.isSome s
          (timing.callSite? s m.supply).2).1 ∧
      (timing.mark s m).1.hoists =
        (hoistSlot timing.probeOf (timing.callSite? s m.supply).1.isSome s
          (timing.callSite? s m.supply).2).2.hoists ∧
      (timing.mark s m).2.supply =
        (hoistSlot timing.probeOf (timing.callSite? s m.supply).1.isSome s
          (timing.callSite? s m.supply).2).2.supply :=
    ⟨rfl, rfl, rfl⟩
  obtain ⟨slot, hoists, supply⟩ := walked
  cases value : s.slot? with
  | none =>
    simp only [hoistSlot, value, start, slotless value] at slot hoists supply
    refine ⟨?_, returned, fun _ => ⟨slot, hoists⟩, fun e some => ?_⟩
    · rw [slotless value] at issued own
      rw [Mark.temporaries, own, hoists, supply]
      exact issued
    · cases value.symm.trans some
  | some e =>
    obtain ⟨e', ms, stays, moved, walk⟩ := hoistSlot_walked value
      (timing.callSite? s m.supply).1.isSome (timing.callSite? s m.supply).2
    refine ⟨?_, returned, fun none => ?_, fun e₁ same => ?_⟩
    · rw [Mark.temporaries, own, hoists, moved, supply, map_temporary_hoistsOf]
      exact issued.append walk.issued
    · cases value.symm.trans none
    · obtain rfl : e = e₁ := by rw [value] at same; exact Option.some.inj same
      exact ⟨e', ms, _, slot.trans stays, hoists.trans moved, supply ▸ walk⟩

end Timing

/-! ## The temporaries of marked trees -/

namespace Marked

theorem marksOfBlock_eq (b : List Marked) : marksOfBlock b = b.flatMap marks := by
  induction b with
  | nil => rw [marksOfBlock]; rfl
  | cons m rest ih => rw [marksOfBlock, ih, List.flatMap_cons]

theorem marksOfBlocks_eq (bs : List (List Marked)) :
    marksOfBlocks bs = bs.flatMap marksOfBlock := by
  induction bs with
  | nil => rw [marksOfBlocks]; rfl
  | cons b rest ih => rw [marksOfBlocks, ih, List.flatMap_cons]

/-- The temporaries of a marked statement. -/
def temporaries (m : Marked) : List String :=
  m.marks.flatMap Mark.temporaries

/-- The temporaries of a marked block. -/
def blockTemporaries (b : List Marked) : List String :=
  b.flatMap temporaries

theorem marksOfBlock_temporaries (b : List Marked) :
    (marksOfBlock b).flatMap Mark.temporaries = blockTemporaries b := by
  rw [marksOfBlock_eq, List.flatMap_assoc]
  rfl

theorem temporaries_mk (s : Stmt) (mark : Mark) (blocks : List (List Marked)) :
    (mk s mark blocks).temporaries = mark.temporaries ++ blocks.flatMap blockTemporaries := by
  rw [temporaries, marks, List.flatMap_cons, marksOfBlocks_eq, List.flatMap_assoc]
  simp only [marksOfBlock_temporaries]

end Marked

namespace Timing

variable (timing : Timing)

theorem issued_block {b : List Stmt}
    (each : ∀ s ∈ b, ∀ m : Mapping,
      Issued m.supply (timing.markStmt s m).1.temporaries (timing.markStmt s m).2.supply)
    (m : Mapping) :
    Issued m.supply (Marked.blockTemporaries (timing.markBlock b m).1)
      (timing.markBlock b m).2.supply := by
  induction b generalizing m with
  | nil =>
    rw [markBlock]
    exact .refl _
  | cons s rest ih =>
    simp only [markBlock, Marked.blockTemporaries, List.flatMap_cons]
    exact (each s List.mem_cons_self m).append (ih (fun x member => each x (.tail _ member)) _)

theorem issued_blocks {bs : List (List Stmt)}
    (each : ∀ b ∈ bs, ∀ s ∈ b, ∀ m : Mapping,
      Issued m.supply (timing.markStmt s m).1.temporaries (timing.markStmt s m).2.supply)
    (m : Mapping) :
    Issued m.supply ((timing.markBlocks bs m).1.flatMap Marked.blockTemporaries)
      (timing.markBlocks bs m).2.supply := by
  induction bs generalizing m with
  | nil => exact .refl _
  | cons b rest ih =>
    simp only [markBlocks, List.flatMap_cons]
    exact (issued_block timing (each b List.mem_cons_self) m).append
      (ih (fun x member => each x (.tail _ member)) _)

/-- The temporaries of a statement and its blocks are handed out one after the other. -/
theorem issued_markStmt (s : Stmt) : ∀ m : Mapping,
    Issued m.supply (timing.markStmt s m).1.temporaries (timing.markStmt s m).2.supply := by
  induction s using Stmt.block_induction with
  | step s blocks =>
    intro m
    cases inside : s.opensScope with
    | true =>
      rw [timing.markStmt_of_opensScope inside]
      exact .refl _
    | false =>
      rw [timing.markStmt_eq inside]
      simp only [Marked.temporaries_mk]
      exact (timing.mark_holds s m).issued.append (issued_blocks timing blocks _)

theorem nodup_markBlock (b : List Stmt) (m : Mapping) :
    (Marked.blockTemporaries (timing.markBlock b m).1).Nodup :=
  (issued_block timing (fun s _ => timing.issued_markStmt s) m).nodup

theorem nodup_markBlocks (bs : List (List Stmt)) (m : Mapping) :
    ((timing.markBlocks bs m).1.flatMap Marked.blockTemporaries).Nodup :=
  (issued_blocks timing (fun _ _ s _ => timing.issued_markStmt s) m).nodup

theorem nodup_markStmt (s : Stmt) (m : Mapping) : (timing.markStmt s m).1.temporaries.Nodup :=
  (timing.issued_markStmt s m).nodup

end Timing

/-! ## Rebuilding statement by statement -/

namespace Site

variable (site : Site)

theorem weaveBlocks_eq (bs : List (List Marked)) :
    (site.weaveBlocks bs).1 = bs.map fun b => (site.weaveBlock b).1 := by
  induction bs with
  | nil => rw [weaveBlocks]; rfl
  | cons b rest ih => simp only [weaveBlocks, ih, List.map_cons]

theorem weave_mk (s : Stmt) (mark : Mark) (blocks : List (List Marked)) :
    (site.weave (.mk s mark blocks)).1 =
      site.apply (s.withBlocks (blocks.map fun b => (site.weaveBlock b).1)) mark := by
  rw [weave, ← weaveBlocks_eq]

end Site

end ProbeWeave.Weaving
