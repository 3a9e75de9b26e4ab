import ProbeWeave.Proofs.Weaving.Pieces

/-! # Paths through the pieces of a woven body

The paths through a woven body are read off its pieces, so that it is known which start, which stop and
which added statement is passed. Control leaves a woven body as it leaves the body of the routine, and
on the way nothing but probes is started and stopped.
-/

namespace ProbeWeave.Syntax.Stmt

open Paths

/-- How control leaves a block. -/
def exits (b : List Stmt) : Paths Empty :=
  blockPaths (fun _ => none) b

theorem exits_nil : exits [] = .quiet .fell :=
  blockPaths_nil _

theorem exits_append (b rest : List Stmt) : exits (b ++ rest) = seq (exits b) (exits rest) :=
  blockPaths_append _ b rest

theorem exits_cons (s : Stmt) (rest : List Stmt) : exits (s :: rest) = seq (exits [s]) (exits rest) :=
  exits_append [s] rest

/-- Control leaves a statement as its blocks let it. -/
theorem exits_singleton (s : Stmt) : exits [s] = s.control (s.blocks.map exits) :=
  blockPaths_singleton _ s

theorem exists_of_isReturn {s : Stmt} (returns : s.isReturn = true) :
    ∃ lines value, s = .returned lines value := by
  cases s <;> first | exact ⟨_, _, rfl⟩ | cases returns

theorem isReturn_withBlocks (s : Stmt) (bodies : List (List Stmt)) :
    (s.withBlocks bodies).isReturn = s.isReturn := by
  fun_cases withBlocks s bodies <;> rfl

theorem isReturn_withSlot (s : Stmt) (e : Expr) : (s.withSlot e).isReturn = s.isReturn := by
  fun_cases withSlot s e <;> rfl

theorem exits_of_isReturn {s : Stmt} (returns : s.isReturn = true) : exits [s] = .quiet .returned := by
  obtain ⟨lines, value, rfl⟩ := exists_of_isReturn returns
  rw [exits_singleton]
  rfl

end ProbeWeave.Syntax.Stmt

namespace ProbeWeave.Weaving

open Syntax Paths

theorem Site.isReturn_rebuilt (s : Stmt) (mark : Mark) (bodies : List (List Stmt)) :
    (Site.rebuilt s mark bodies).isReturn = s.isReturn := by
  unfold Site.rebuilt
  split
  · rw [Stmt.isReturn_withSlot, Stmt.isReturn_withBlocks]
  · rw [Stmt.isReturn_withBlocks]

/-- What happens on a path through pieces. -/
inductive RunEvent where
  | started (w : Wrap)
  | stopped (w : Wrap)
  /-- A statement was run that serves no probe of the routine. -/
  | ran (s : Stmt)

/-- Whether a probe was started or stopped. -/
def RunEvent.isProbe : RunEvent → Bool
  | started _ | stopped _ => true
  | ran _ => false

namespace Piece

mutual

/-- The paths through a piece. -/
def paths : Piece → Paths RunEvent
  | start w => .event (.started w)
  | bind _ _ => .quiet .fell
  | stop w => .event (.stopped w)
  | give _ => .quiet .returned
  | own s _ blocks => s.control (pathsEach blocks)
  | extra s => .event (.ran s)

/-- The paths through pieces, one after the other. -/
def blockPaths : List Piece → Paths RunEvent
  | [] => .quiet .fell
  | p :: rest => .seq (paths p) (blockPaths rest)

/-- The paths through each of several blocks of pieces. -/
def pathsEach : List (List Piece) → List (Paths RunEvent)
  | [] => []
  | b :: rest => blockPaths b :: pathsEach rest

end

theorem blockPaths_append (ps qs : List Piece) :
    blockPaths (ps ++ qs) = seq (blockPaths ps) (blockPaths qs) := by
  induction ps with
  | nil => rw [List.nil_append, blockPaths, quiet_seq]
  | cons p rest ih => rw [List.cons_append, blockPaths, blockPaths, ih, seq_assoc]

theorem blockPaths_singleton (p : Piece) : blockPaths [p] = p.paths := by
  rw [blockPaths, blockPaths, seq_quiet]

theorem renderBlock_append (site : Site) (ps qs : List Piece) :
    renderBlock site (ps ++ qs) = renderBlock site ps ++ renderBlock site qs := by
  simp only [renderBlock_eq, List.map_append]

theorem pathsEach_eq (bs : List (List Piece)) : pathsEach bs = bs.map blockPaths := by
  induction bs with
  | nil => rw [pathsEach]; rfl
  | cons b rest ih => rw [pathsEach, ih, List.map_cons]

/-! ### Pieces and statements that are left alike -/

/-- Whether probes are started and stopped, and nothing else happens. -/
def OnlyProbes (es : List RunEvent) (_ : List Empty) : Prop :=
  ∀ e ∈ es, e.isProbe = true

theorem additive_onlyProbes : Additive OnlyProbes :=
  ⟨nofun, fun first second => List.forall_mem_append.mpr ⟨first, second⟩⟩

/-- Pieces that control leaves as it leaves statements, with nothing but probes on the way. -/
structure Mirrors (site : Site) (ps : List Piece) (b : List Stmt) : Prop where
  exits : Stmt.exits (renderBlock site ps) = Stmt.exits b
  runs : Alike OnlyProbes (blockPaths ps) (Stmt.exits b)

variable {site : Site} {ps qs : List Piece} {b c : List Stmt}

namespace Mirrors

theorem nil (site : Site) : Mirrors site [] [] := by
  refine ⟨by rw [renderBlock], ?_⟩
  rw [blockPaths, Stmt.exits_nil]
  exact .quiet additive_onlyProbes .fell

theorem append (first : Mirrors site ps b) (second : Mirrors site qs c) :
    Mirrors site (ps ++ qs) (b ++ c) where
  exits := by
    rw [renderBlock_append, Stmt.exits_append, Stmt.exits_append, first.exits, second.exits]
  runs := by
    rw [blockPaths_append, Stmt.exits_append]
    exact .seq additive_onlyProbes first.runs second.runs

/-- A start or a stop of a probe lets control through. -/
theorem ofEvent {p : Piece} {e : RunEvent} (happens : p.paths = .event e) (probe : e.isProbe = true)
    (falls : Stmt.exits [render site p] = .quiet .fell) : Mirrors site [p] [] := by
  refine ⟨by rw [renderBlock, renderBlock, falls, Stmt.exits_nil], ?_⟩
  rw [blockPaths_singleton, happens, Stmt.exits_nil]
  have only : OnlyProbes [e] [] := List.forall_mem_singleton.mpr probe
  constructor
  · rintro es _ ⟨rfl, rfl⟩
    exact ⟨[], ⟨rfl, rfl⟩, only⟩
  · rintro ds _ ⟨rfl, rfl⟩
    exact ⟨[e], ⟨rfl, rfl⟩, only⟩

theorem start (site : Site) (w : Wrap) : Mirrors site [.start w] [] :=
  ofEvent (by rw [paths]) rfl (by rw [render, Stmt.exits_singleton]; rfl)

theorem stop (site : Site) (w : Wrap) : Mirrors site [.stop w] [] :=
  ofEvent (by rw [paths]) rfl (by rw [render, Stmt.exits_singleton]; rfl)

theorem bind (site : Site) (temporary : String) (value : Expr) :
    Mirrors site [.bind temporary value] [] := by
  refine ⟨?_, ?_⟩
  · rw [renderBlock, renderBlock, render, Stmt.exits_singleton, Stmt.exits_nil]
    rfl
  · rw [blockPaths_singleton, paths, Stmt.exits_nil]
    exact .quiet additive_onlyProbes .fell

/-- A piece that returns is left as a `return` is. -/
theorem returning {p : Piece} (rendered : (render site p).isReturn = true)
    (leaves : p.paths = .quiet .returned) {s : Stmt} (returns : s.isReturn = true) :
    Mirrors site [p] [s] := by
  refine ⟨?_, ?_⟩
  · rw [renderBlock, renderBlock, Stmt.exits_of_isReturn rendered, Stmt.exits_of_isReturn returns]
  · rw [blockPaths_singleton, leaves, Stmt.exits_of_isReturn returns]
    exact .quiet additive_onlyProbes .returned

/-- A probe around pieces lets control through as they do. -/
theorem between (inner : Mirrors site ps b) (w : Wrap) :
    Mirrors site (.start w :: (ps ++ [.stop w])) b := by
  have whole := (start site w).append (inner.append (stop site w))
  rwa [List.nil_append, List.append_nil] at whole

/-- A rebuilt statement is left as the statement is. -/
theorem own {s : Stmt} {blocks : List (List Piece)}
    (each : List.Forall₂ (Mirrors site) blocks s.blocks) (mark : Mark) :
    Mirrors site [.own s mark blocks] [s] where
  exits := by
    have fits : (renderBlocks site blocks).length = s.blocks.length := by
      rw [renderBlocks_eq, List.length_map, each.length_eq]
    have same : (renderBlocks site blocks).map Stmt.exits = s.blocks.map Stmt.exits := by
      rw [renderBlocks_eq, List.map_map, ← List.forall₂_eq_eq_eq, List.forall₂_map_left_iff,
        List.forall₂_map_right_iff]
      exact each.imp fun _ _ mirrors => mirrors.exits
    rw [renderBlock, renderBlock, render, Stmt.exits_singleton, Stmt.exits_singleton,
      control_rebuilt, blocks_rebuilt mark fits, same]
  runs := by
    rw [blockPaths_singleton, paths, Stmt.exits_singleton, pathsEach_eq]
    refine Stmt.alike_control additive_onlyProbes s ?_
    rw [List.forall₂_map_left_iff, List.forall₂_map_right_iff]
    exact each.imp fun _ _ mirrors => mirrors.runs

theorem ahead (site : Site) (hoists : List Hoist) : Mirrors site (hoists.flatMap Piece.ahead) [] := by
  induction hoists with
  | nil => exact nil site
  | cons hoist rest ih =>
    exact ((bind site hoist.temporary hoist.bound).between (.ahead hoist)).append ih

/-- What the site of a statement asks for is left as the statement is. -/
theorem around {s : Stmt} {mark : Mark} {blocks : List (List Piece)}
    (each : List.Forall₂ (Mirrors site) blocks s.blocks)
    (returns : ∀ w, mark.site = some w → w.temporary?.isSome = true → s.isReturn = true) :
    Mirrors site (Piece.around s mark (.own s mark blocks)) [s] := by
  have inner := Mirrors.own each mark
  unfold Piece.around
  cases found : mark.site with
  | none => exact inner
  | some w =>
    dsimp only
    split
    · rename_i temporary value returned _
      have ends := returns w found (by rw [StatementSite.temporary?, returned]; rfl)
      exact ((bind site temporary value).between (.around s w)).append
        (returning (by rw [render]; rfl) (by rw [paths]) ends)
    · exact inner.between (.around s w)

end Mirrors

end Piece

/-! ### Marked routines -/

namespace Timing

variable {timing : Timing} {site : Site}

/-- Whether the pieces that take the place of a statement are left as the statement is. -/
def MirrorsStmt (timing : Timing) (site : Site) (s : Stmt) : Prop :=
  ∀ m : Mapping, Piece.Mirrors site (Piece.ofMarked (timing.markStmt s m).1) [s]

theorem mirrors_block {b : List Stmt} (each : ∀ s ∈ b, MirrorsStmt timing site s) (m : Mapping) :
    Piece.Mirrors site (Piece.ofBlock (timing.markBlock b m).1) b := by
  induction b generalizing m with
  | nil =>
    rw [markBlock, Piece.ofBlock]
    exact .nil site
  | cons s rest ih =>
    simp only [markBlock, Piece.ofBlock]
    exact (each s List.mem_cons_self m).append (ih (fun x member => each x (.tail _ member)) _)

theorem mirrors_blocks {bs : List (List Stmt)} (each : ∀ b ∈ bs, ∀ s ∈ b, MirrorsStmt timing site s)
    (m : Mapping) :
    List.Forall₂ (Piece.Mirrors site) (Piece.ofBlocks (timing.markBlocks bs m).1) bs := by
  induction bs generalizing m with
  | nil =>
    rw [markBlocks, Piece.ofBlocks]
    exact .nil
  | cons b rest ih =>
    simp only [markBlocks, Piece.ofBlocks]
    exact .cons (mirrors_block (each b List.mem_cons_self) m)
      (ih (fun c member => each c (.tail _ member)) _)

theorem mirrors_stmt (timing : Timing) (site : Site) (s : Stmt) : MirrorsStmt timing site s := by
  induction s using Stmt.block_induction with
  | step s blocks =>
    intro m
    cases inside : s.opensScope with
    | true =>
      rw [timing.markStmt_of_opensScope inside, Piece.ofMarked, Piece.ofBlocks]
      refine (Piece.Mirrors.nil site).append (.own ?_ ⟨none, [], none⟩)
      rw [Stmt.blocks_of_opensScope inside]
      exact .nil
    | false =>
      rw [timing.markStmt_eq inside]
      dsimp only
      rw [Piece.ofMarked]
      refine (Piece.Mirrors.ahead site _).append
        (.around (mirrors_blocks blocks _) fun w found returns => ?_)
      obtain ⟨lines, e, rfl⟩ := (timing.mark_holds s m).returns w found returns
      rfl

/-- Control leaves a woven body as it leaves the body of the routine. -/
theorem mirrors_markBlock (timing : Timing) (site : Site) (b : List Stmt) (m : Mapping) :
    Piece.Mirrors site (Piece.ofBlock (timing.markBlock b m).1) b :=
  mirrors_block (fun s _ => mirrors_stmt timing site s) m

/-- A `return` is timed by a site that returns through a temporary. -/
theorem returned_of_site {s : Stmt} (returns : s.isReturn = true) {m : Mapping} {w : StatementSite}
    (found : (timing.mark s m).1.site = some w) : w.temporary?.isSome = true := by
  cases s with
  | returned lines value =>
    have plain : (timing.mark (.returned lines value) m).1.site =
        (timing.callSite? (.returned lines value) m.supply).1 := Option.or_none
    rw [plain, callSite?] at found
    split at found
    · cases found
    · cases found
      rfl
  | _ => cases returns

/-- A piece that returns in the place of a statement, with what that reads or with temporaries. -/
structure Returning (site : Site) (s : Stmt) (temporaries : List String) (p : Piece) : Prop where
  rendered : (p.render site).isReturn = true
  leaves : p.paths = .quiet .returned
  reads : ∀ id, (p.render site).uses id ≠ [] → s.uses id ≠ [] ∨ id ∈ temporaries

theorem Returning.mono {s : Stmt} {names more : List String} {p : Piece}
    (returning : Returning site s names p) (subset : ∀ id ∈ names, id ∈ more) :
    Returning site s more p :=
  ⟨returning.rendered, returning.leaves, fun id read =>
    (returning.reads id read).imp_right (subset id)⟩

/-- A `return` whose calls run ahead reads their temporaries besides what it reads anyway. -/
theorem Holds.returning {lines : Lines} {value : Option Expr} {mark : Mark} {before after : Supply}
    (holds : Holds (.returned lines value) mark before after) (site : Site) :
    Returning site (.returned lines value) mark.temporaries (.own (.returned lines value) mark []) := by
  refine ⟨by rw [Piece.render, Site.isReturn_rebuilt]; rfl, by rw [Piece.paths]; rfl, fun id read => ?_⟩
  rw [Piece.render, Piece.renderBlocks] at read
  by_contra neither
  obtain ⟨unused, free⟩ := not_or.mp neither
  rw [not_not] at unused
  have blockless : ([] : List (List Stmt)).length = (Stmt.returned lines value).blocks.length := rfl
  obtain ⟨ms, stays, bs, hoists, once, perm, uses⟩ := Site.uses_rebuilt holds unused blockless
  obtain ⟨-, rfl⟩ := once.absent fun there => free <|
    List.mem_append_right _ (by rwa [hoists, Hoisting.map_temporary_hoistsOf])
  obtain rfl := List.perm_nil.mp perm
  exact read uses

/-- The pieces that take the place of a `return` end with one, and control gets there. -/
theorem exists_returning (timing : Timing) (site : Site) {s : Stmt} (returns : s.isReturn = true)
    (m : Mapping) :
    ∃ before last, Piece.ofMarked (timing.markStmt s m).1 = before ++ [last] ∧
      Piece.Mirrors site before [] ∧ Returning site s (timing.markStmt s m).1.temporaries last := by
  obtain ⟨lines, value, rfl⟩ := Stmt.exists_of_isReturn returns
  have holds := timing.mark_holds (.returned lines value) m
  rw [timing.markStmt_eq rfl]
  dsimp only
  rw [Piece.ofMarked, Marked.temporaries_mk, show (Stmt.returned lines value).blocks = [] from rfl,
    markBlocks, Piece.ofBlocks, List.flatMap_nil, List.append_nil]
  generalize found : (timing.mark (.returned lines value) m).1 = mark at holds
  have ahead := Piece.Mirrors.ahead site mark.hoists
  unfold Piece.around
  cases own : mark.site with
  | none => exact ⟨_, _, rfl, ahead, holds.returning site⟩
  | some w =>
    have temporary := returned_of_site returns (found ▸ own)
    obtain ⟨_, e, same⟩ := holds.returns w own temporary
    cases same
    obtain ⟨e', -, -, slot, -, -⟩ := holds.slotted e rfl
    obtain ⟨kind, probe⟩ := w
    cases kind with
    | returned name =>
      rw [show (Stmt.returned lines (some e)).blocks = [] from rfl, Site.rebuilt_returned slot]
      have bound := (Piece.Mirrors.bind site name e').between
        (.around (.returned lines (some e)) ⟨.returned name, probe⟩)
      refine ⟨_, .give name, ?_, ahead.append bound, by rw [Piece.render]; rfl, by rw [Piece.paths],
        fun id read => .inr ?_⟩
      · simp [Stmt.slot?]
      · rw [Piece.render, uses_returnName] at read
        obtain rfl : name = id := by
          by_contra other
          rw [if_neg other] at read
          exact read rfl
        rw [Mark.temporaries, own]
        exact List.mem_append_left _ List.mem_cons_self
    | _ => cases temporary

/-- The pieces that take the place of another statement end with something else than a `return`. -/
theorem exists_other (timing : Timing) (site : Site) {s : Stmt} (other : s.isReturn = false)
    (m : Mapping) :
    ∃ before last, Piece.ofMarked (timing.markStmt s m).1 = before ++ [last] ∧
      (last.render site).isReturn = false := by
  have kept (mark : Mark) (blocks : List (List Piece)) :
      ((Piece.own s mark blocks).render site).isReturn = false := by
    rw [Piece.render, Site.isReturn_rebuilt, other]
  cases inside : s.opensScope with
  | true =>
    rw [timing.markStmt_of_opensScope inside, Piece.ofMarked]
    exact ⟨_, _, rfl, kept _ _⟩
  | false =>
    rw [timing.markStmt_eq inside]
    dsimp only
    rw [Piece.ofMarked]
    unfold Piece.around
    split
    · exact ⟨_, _, rfl, kept _ _⟩
    · rename_i w found
      split
      · rename_i name value kind _
        obtain ⟨lines, e, rfl⟩ := (timing.mark_holds s m).returns w found
          (by rw [StatementSite.temporary?, kind]; rfl)
        cases other
      · exact ⟨_, _, (List.append_assoc _ [_, _] [Piece.stop (.around s w)]).symm, rfl⟩

end Timing

end ProbeWeave.Weaving
