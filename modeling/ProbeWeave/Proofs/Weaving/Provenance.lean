import ProbeWeave.Proofs.Weaving.Balance

/-! # Where the statements of a woven body come from

A woven body has the statements of the routine, with other blocks and slots, and around them
statements that start and stop probes or serve temporaries. Nothing else is in it, at any depth, and
the probes are those of the marks.
-/

namespace ProbeWeave.Syntax

/-- Whether a statement stands in a block or in a block of its statements. -/
inductive Stmt.Within (t : Stmt) : List Stmt → Prop
  | here {b : List Stmt} (member : t ∈ b) : Within t b
  | inside {s : Stmt} {b inner : List Stmt} (member : s ∈ b) (block : inner ∈ s.blocks)
      (within : Within t inner) : Within t b

namespace Stmt.Within

variable {t : Stmt} {b c : List Stmt}

theorem mono (sub : b ⊆ c) (within : t.Within b) : t.Within c := by
  cases within with
  | here member => exact .here (sub member)
  | inside member block within => exact .inside (sub member) block within

theorem trans {s : Stmt} {inner : List Stmt} (outer : s.Within b) (block : inner ∈ s.blocks)
    (within : t.Within inner) : t.Within b := by
  induction outer with
  | here member => exact .inside member block within
  | inside member above _ ih => exact .inside member above ih

theorem of_append (within : t.Within (b ++ c)) : t.Within b ∨ t.Within c := by
  cases within with
  | here member => exact (List.mem_append.mp member).imp .here .here
  | inside member block within =>
    exact (List.mem_append.mp member).imp (.inside · block within) (.inside · block within)

theorem of_singleton {s : Stmt} (within : t.Within [s]) :
    t = s ∨ ∃ inner ∈ s.blocks, t.Within inner := by
  cases within with
  | here member => exact .inl (List.mem_singleton.mp member)
  | inside member block within =>
    obtain rfl := List.mem_singleton.mp member
    exact .inr ⟨_, block, within⟩

/-- In a block of statements without blocks there are these statements only. -/
theorem mem_of_flat (flat : ∀ s ∈ b, s.blocks = []) (within : t.Within b) : t ∈ b := by
  cases within with
  | here member => exact member
  | inside member block =>
    rw [flat _ member] at block
    cases block

end Stmt.Within

end ProbeWeave.Syntax

namespace ProbeWeave.Weaving

open Syntax

/-- The ways in which a statement comes into a woven body, given the names that probes may have, the
marks of the routine, and its body as it was. -/
inductive Stems (site : Site) (names : List String) (marks : List Mark) (original : List Stmt) :
    Stmt → Prop
  | started {probe : String} (declared : probe ∈ names) :
      Stems site names marks original (site.start probe)
  | stopped {probe : String} (declared : probe ∈ names) :
      Stems site names marks original (site.stop probe)
  | bound {mark : Mark} (marked : mark ∈ marks) {temporary : String}
      (served : temporary ∈ mark.temporaries) (value : Expr) :
      Stems site names marks original (bindName temporary value)
  | returned {mark : Mark} (marked : mark ∈ marks) {temporary : String}
      (served : temporary ∈ mark.temporaries) :
      Stems site names marks original (returnName temporary)
  | kept {s : Stmt} (scope : s.opensScope = true) (within : s.Within original) :
      Stems site names marks original s
  | rebuilt {s : Stmt} (scope : s.opensScope = false) (within : s.Within original) {mark : Mark}
      (marked : mark ∈ marks) {bodies : List (List Stmt)} (fits : bodies.length = s.blocks.length) :
      Stems site names marks original (Site.rebuilt s mark bodies)

/-- Whether the probes of marks have names out of a list. -/
def Declared (names : List String) (marks : List Mark) : Prop :=
  ∀ mark ∈ marks, ∀ probe ∈ mark.probes, probe ∈ names

section Body

variable {timing : Timing} {site : Site} {names : List String} {marks : List Mark}
  {original : List Stmt}

/-- Every statement that takes the place of a statement comes from it or serves its marks. -/
def StemsStmt (timing : Timing) (site : Site) (names : List String) (marks : List Mark)
    (original : List Stmt) (s : Stmt) : Prop :=
  ∀ m : Mapping, s.Within original → (timing.markStmt s m).1.marks ⊆ marks →
    ∀ t : Stmt, t.Within (site.weave (timing.markStmt s m).1).1 → Stems site names marks original t

theorem stems_block {b : List Stmt}
    (each : ∀ s ∈ b, StemsStmt timing site names marks original s)
    (own : ∀ s ∈ b, s.Within original) (m : Mapping)
    (marked : Marked.marksOfBlock (timing.markBlock b m).1 ⊆ marks) {t : Stmt}
    (within : t.Within (site.weaveBlock (timing.markBlock b m).1).1) :
    Stems site names marks original t := by
  induction b generalizing m with
  | nil =>
    rw [Timing.markBlock, Site.weaveBlock] at within
    cases within.mem_of_flat (by simp)
  | cons s rest ih =>
    simp only [Timing.markBlock, Marked.marksOfBlock] at marked
    simp only [Timing.markBlock, Site.weaveBlock] at within
    obtain ⟨here, others⟩ := List.append_subset.mp marked
    rcases within.of_append with within | within
    · exact each s List.mem_cons_self m (own s List.mem_cons_self) here t within
    · exact ih (fun x member => each x (.tail _ member)) (fun x member => own x (.tail _ member)) _
        others within

theorem stems_blocks {bs : List (List Stmt)}
    (each : ∀ b ∈ bs, ∀ s ∈ b, StemsStmt timing site names marks original s)
    (own : ∀ b ∈ bs, ∀ s ∈ b, s.Within original) (m : Mapping)
    (marked : Marked.marksOfBlocks (timing.markBlocks bs m).1 ⊆ marks) :
    ∀ b ∈ (timing.markBlocks bs m).1.map fun b => (site.weaveBlock b).1, ∀ t, t.Within b →
      Stems site names marks original t := by
  induction bs generalizing m with
  | nil => nofun
  | cons b rest ih =>
    simp only [Timing.markBlocks, Marked.marksOfBlocks] at marked
    simp only [Timing.markBlocks, List.map_cons]
    obtain ⟨here, others⟩ := List.append_subset.mp marked
    refine List.forall_mem_cons.mpr ⟨fun t within => ?_, ?_⟩
    · exact stems_block (each b List.mem_cons_self) (own b List.mem_cons_self) m here within
    · exact ih (fun x member => each x (.tail _ member)) (fun x member => own x (.tail _ member)) _
        others

variable (declared : Declared names marks)
include declared

theorem stems_ahead {mark : Mark} (marked : mark ∈ marks) {t : Stmt}
    (within : t.Within (mark.hoists.flatMap site.ahead)) : Stems site names marks original t := by
  have flat : ∀ s ∈ mark.hoists.flatMap site.ahead, s.blocks = [] := by
    simp only [List.mem_flatMap, Site.ahead, List.mem_cons, List.not_mem_nil, or_false]
    rintro _ ⟨_, -, rfl | rfl | rfl⟩ <;> rfl
  obtain ⟨h, member, placed⟩ := List.mem_flatMap.mp (within.mem_of_flat flat)
  have probe : h.probe ∈ names :=
    declared mark marked _ (List.mem_append_left _ (List.mem_map_of_mem member))
  simp only [Site.ahead, List.mem_cons, List.not_mem_nil, or_false] at placed
  rcases placed with rfl | rfl | rfl
  · exact .started probe
  · exact .bound marked (List.mem_append_right _ (List.mem_map_of_mem member)) h.bound
  · exact .stopped probe

variable {s : Stmt} {mark : Mark} {before after : Supply} {bodies : List (List Stmt)} {t : Stmt}

/-- Around a statement stand the start and the stop of its probe, and what serves its temporary. -/
theorem stems_around (holds : Timing.Holds s mark before after) (marked : mark ∈ marks)
    (fits : bodies.length = s.blocks.length)
    (rebuilt : t.Within [Site.rebuilt s mark bodies] → Stems site names marks original t)
    {own : StatementSite} (sited : mark.site = some own)
    (within : t.Within (site.around (Site.rebuilt s mark bodies) own)) :
    Stems site names marks original t := by
  have probe : own.probe ∈ names := by
    refine declared mark marked _ (List.mem_append_right _ ?_)
    rw [sited]
    exact List.mem_cons_self
  cases direct : own.temporary? with
  | none =>
    rw [Site.around_eq site direct] at within
    rcases within.of_append (b := [site.start own.probe]) with start | within
    · obtain rfl := List.mem_singleton.mp (start.mem_of_flat (by simp [Site.start, Stmt.blocks]))
      exact .started probe
    rcases within.of_append (b := [Site.rebuilt s mark bodies]) with here | stop
    · exact rebuilt here
    · obtain rfl := List.mem_singleton.mp (stop.mem_of_flat (by simp [Site.stop, Stmt.blocks]))
      exact .stopped probe
  | some temporary =>
    obtain ⟨lines, e, rfl⟩ := holds.returns own sited (by rw [direct]; rfl)
    obtain ⟨e', _, _, stays, -⟩ := holds.slotted e rfl
    obtain rfl : bodies = [] := List.length_eq_zero_iff.mp fits
    have serves : temporary ∈ mark.temporaries := by
      refine List.mem_append_left _ ?_
      rw [sited, Option.bind_some, direct]
      exact List.mem_cons_self
    rw [Site.rebuilt_returned stays, Site.around_returned site direct] at within
    have placed := within.mem_of_flat fun s member => by
      simp only [List.mem_cons, List.not_mem_nil, or_false] at member
      rcases member with rfl | rfl | rfl | rfl <;> rfl
    simp only [List.mem_cons, List.not_mem_nil, or_false] at placed
    rcases placed with rfl | rfl | rfl | rfl
    · exact .started probe
    · exact .bound marked serves e'
    · exact .stopped probe
    · exact .returned marked serves

/-- What takes the place of a statement is the statement with other blocks and serves its mark. -/
theorem stems_apply (holds : Timing.Holds s mark before after) (marked : mark ∈ marks)
    (scope : s.opensScope = false) (own : s.Within original) (fits : bodies.length = s.blocks.length)
    (inside : ∀ b ∈ bodies, ∀ t, t.Within b → Stems site names marks original t)
    (within : t.Within (site.apply (s.withBlocks bodies) mark)) :
    Stems site names marks original t := by
  have rebuilt (here : t.Within [Site.rebuilt s mark bodies]) :
      Stems site names marks original t := by
    rcases here.of_singleton with rfl | ⟨b, block, below⟩
    · exact .rebuilt scope own marked fits
    · rw [blocks_rebuilt mark fits] at block
      exact inside b block t below
  rw [Site.apply_eq] at within
  rcases within.of_append with ahead | within
  · exact stems_ahead declared marked ahead
  · cases sited : mark.site with
    | none =>
      rw [sited] at within
      exact rebuilt within
    | some around =>
      rw [sited] at within
      exact stems_around declared holds marked fits rebuilt sited within

theorem stems_stmt (s : Stmt) : StemsStmt timing site names marks original s := by
  induction s using Stmt.block_induction with
  | step s blocks =>
    intro m own marked t within
    cases inside : s.opensScope with
    | true =>
      have none := Stmt.blocks_of_opensScope inside
      rw [timing.markStmt_of_opensScope inside, Site.weave_mk, List.map_nil,
        Stmt.withBlocks_nil none] at within
      rcases within.of_singleton with rfl | ⟨_, block, -⟩
      · exact .kept inside own
      · rw [none] at block
        cases block
    | false =>
      rw [timing.markStmt_eq inside] at marked within
      simp only [Marked.marks] at marked
      obtain ⟨here, below⟩ := List.cons_subset.mp marked
      rw [Site.weave_mk] at within
      refine stems_apply declared (timing.mark_holds s m) here inside own
        (by simp [timing.length_markBlocks]) ?_ within
      exact stems_blocks blocks (fun b block x member => own.trans block (.here member)) _ below

/-- Every statement of a woven block comes from the block or serves its marks. -/
theorem stems_weaveBlock {b : List Stmt} {m : Mapping}
    (marked : Marked.marksOfBlock (timing.markBlock b m).1 ⊆ marks)
    (within : t.Within (site.weaveBlock (timing.markBlock b m).1).1) :
    Stems site names marks b t :=
  stems_block (fun s _ => stems_stmt declared s) (fun _ => .here) m marked within

end Body

end ProbeWeave.Weaving
