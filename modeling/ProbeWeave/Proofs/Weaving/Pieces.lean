import ProbeWeave.Proofs.Weaving.Sites

/-! # The pieces of a woven body

A woven body consists of the statements of the routine and of statements that were put in. Every piece
knows what it is for: a start and a stop belong to the call or the statement that they were put around.
Each call and each statement that mapping recorded is started once and stopped once, and is told of
once among the changes.
-/

namespace ProbeWeave.Weaving

open Syntax

/-- What a probe is put around: a call that runs ahead of its statement, or a statement. -/
inductive Wrap where
  | ahead (hoist : Hoist)
  | around (s : Stmt) (own : StatementSite)

namespace Wrap

/-- The probe. -/
def probe : Wrap → String
  | ahead hoist => hoist.probe
  | around _ own => own.probe

/-- The change that putting the probe there is. -/
def change : Wrap → Change
  | ahead hoist => ⟨.call, hoist.probe⟩
  | around _ own => ⟨own.kind.change, own.probe⟩

theorem probe_change (w : Wrap) : w.change.probe = w.probe := by
  cases w <;> rfl

/-- What the mark of a statement asks for. -/
def ofNode (x : Stmt × Mark) : List Wrap :=
  x.2.hoists.map ahead ++ (x.2.site.map (around x.1)).toList

theorem map_change_ofNode (x : Stmt × Mark) : (ofNode x).map change = Site.changesOf x.2 := by
  rw [ofNode, Site.changesOf, List.map_append, List.map_map]
  congr 1
  cases x.2.site <;> rfl

end Wrap

/-- What mapping recorded for the statements of a block and of the blocks within. -/
def recorded (b : List Marked) : List Wrap :=
  (Marked.nodesOfBlock b).flatMap Wrap.ofNode

/-! ### Changes -/

mutual

/-- What is told of are the sites and the moved calls of a statement, each once. -/
theorem changes_weave (site : Site) : ∀ m : Marked,
    (site.weave m).2.Perm ((m.nodes.flatMap Wrap.ofNode).map Wrap.change)
  | .mk s mark blocks => by
    rw [Site.weave, Marked.nodes, List.flatMap_cons, List.map_append, Wrap.map_change_ofNode]
    exact List.perm_append_comm.trans ((changes_weaveBlocks site blocks).append_left _)

theorem changes_weaveBlock (site : Site) : ∀ b : List Marked,
    (site.weaveBlock b).2.Perm ((recorded b).map Wrap.change)
  | [] => by
    rw [Site.weaveBlock, recorded, Marked.nodesOfBlock]
    exact .refl _
  | m :: rest => by
    rw [Site.weaveBlock, recorded, Marked.nodesOfBlock, List.flatMap_append, List.map_append]
    exact (changes_weave site m).append (changes_weaveBlock site rest)

theorem changes_weaveBlocks (site : Site) : ∀ bs : List (List Marked),
    (site.weaveBlocks bs).2.Perm
      (((Marked.nodesOfBlocks bs).flatMap Wrap.ofNode).map Wrap.change)
  | [] => by
    rw [Site.weaveBlocks, Marked.nodesOfBlocks]
    exact .refl _
  | b :: rest => by
    rw [Site.weaveBlocks, Marked.nodesOfBlocks, List.flatMap_append, List.map_append]
    exact (changes_weaveBlock site b).append (changes_weaveBlocks site rest)

end

/-! ### Pieces -/

/-- A statement of a woven body with what it is for. -/
inductive Piece where
  | start (w : Wrap)
  | bind (temporary : String) (value : Expr)
  | stop (w : Wrap)
  | give (temporary : String)
  /-- A statement of the routine with its mark and the pieces of its blocks. -/
  | own (s : Stmt) (mark : Mark) (blocks : List (List Piece))
  /-- A statement that serves no probe of the routine: an import or a part of the report. -/
  | extra (s : Stmt)

namespace Piece

mutual

/-- The statement that a piece is. -/
def render (site : Site) : Piece → Stmt
  | start w => site.start w.probe
  | bind temporary value => bindName temporary value
  | stop w => site.stop w.probe
  | give temporary => returnName temporary
  | own s mark blocks => Site.rebuilt s mark (renderBlocks site blocks)
  | extra s => s

/-- The statements that pieces are. -/
def renderBlock (site : Site) : List Piece → List Stmt
  | [] => []
  | p :: rest => render site p :: renderBlock site rest

/-- The blocks that pieces make. -/
def renderBlocks (site : Site) : List (List Piece) → List (List Stmt)
  | [] => []
  | b :: rest => renderBlock site b :: renderBlocks site rest

end

mutual

/-- A piece and those of its blocks, in the order of their statements. -/
def all : Piece → List Piece
  | own s mark blocks => own s mark blocks :: allOfBlocks blocks
  | extra s => s.walk.map extra
  | p => [p]

/-- The pieces of a block and of the blocks within. -/
def allOfBlock : List Piece → List Piece
  | [] => []
  | p :: rest => all p ++ allOfBlock rest

/-- The pieces of blocks and of the blocks within. -/
def allOfBlocks : List (List Piece) → List Piece
  | [] => []
  | b :: rest => allOfBlock b ++ allOfBlocks rest

end

/-- What a piece starts. -/
def started? : Piece → Option Wrap
  | start w => some w
  | _ => none

/-- What a piece stops. -/
def stopped? : Piece → Option Wrap
  | stop w => some w
  | _ => none

/-- The statement of the routine that a piece is. -/
def own? : Piece → Option Stmt
  | own s _ _ => some s
  | _ => none

/-- The pieces that run a call ahead. -/
def ahead (hoist : Hoist) : List Piece :=
  [start (.ahead hoist), bind hoist.temporary hoist.bound, stop (.ahead hoist)]

/-- A piece with what the site of its statement asks for. -/
def around (s : Stmt) (mark : Mark) (p : Piece) : List Piece :=
  match mark.site with
  | none => [p]
  | some w =>
    match w.kind, (Site.rebuilt s mark s.blocks).slot? with
    | .returned temporary, some value =>
      [start (.around s w), bind temporary value, stop (.around s w), give temporary]
    | _, _ => [start (.around s w), p, stop (.around s w)]

mutual

/-- The pieces that take the place of a marked statement. -/
def ofMarked : Marked → List Piece
  | .mk s mark blocks => mark.hoists.flatMap ahead ++ around s mark (own s mark (ofBlocks blocks))

/-- The pieces of a marked block. -/
def ofBlock : List Marked → List Piece
  | [] => []
  | m :: rest => ofMarked m ++ ofBlock rest

/-- The pieces of marked blocks. -/
def ofBlocks : List (List Marked) → List (List Piece)
  | [] => []
  | b :: rest => ofBlock b :: ofBlocks rest

end

/-! ### What the pieces are -/

theorem length_ofBlocks (bs : List (List Marked)) : (ofBlocks bs).length = bs.length := by
  induction bs with
  | nil => rw [ofBlocks]; rfl
  | cons b rest ih => rw [ofBlocks, List.length_cons, ih, List.length_cons]

section Render

variable (site : Site)

theorem renderBlock_eq (ps : List Piece) : renderBlock site ps = ps.map (render site) := by
  induction ps with
  | nil => rw [renderBlock]; rfl
  | cons p rest ih => rw [renderBlock, ih, List.map_cons]

theorem map_render_extra (ss : List Stmt) : (ss.map extra).map (render site) = ss := by
  rw [List.map_map]
  refine (List.map_congr_left fun s _ => ?_).trans (List.map_id ss)
  rw [Function.comp_apply, render, id]

theorem renderBlocks_eq (bs : List (List Piece)) :
    renderBlocks site bs = bs.map (renderBlock site) := by
  induction bs with
  | nil => rw [renderBlocks]; rfl
  | cons b rest ih => rw [renderBlocks, ih, List.map_cons]

theorem render_ahead (hoists : List Hoist) :
    (hoists.flatMap ahead).map (render site) = hoists.flatMap site.ahead := by
  rw [List.map_flatMap]
  refine congrArg (hoists.flatMap ·) (funext fun hoist => ?_)
  simp only [ahead, List.map_cons, List.map_nil, render, Site.ahead, Wrap.probe]

/-- The slot of a rebuilt statement has nothing to do with its blocks. -/
theorem slot_rebuilt (s : Stmt) (mark : Mark) (bodies others : List (List Stmt)) :
    (Site.rebuilt s mark bodies).slot? = (Site.rebuilt s mark others).slot? := by
  unfold Site.rebuilt
  cases mark.slot with
  | none => rw [Stmt.slot_withBlocks, Stmt.slot_withBlocks]
  | some e =>
    have slot (bs : List (List Stmt)) : ((s.withBlocks bs).withSlot e).slot? = (s.withSlot e).slot? := by
      fun_cases Stmt.withBlocks s bs <;> first
        | rfl
        | (rename_i items _ _; cases items <;> rfl)
    rw [slot, slot]

theorem render_around (s : Stmt) (mark : Mark) (blocks : List (List Piece)) :
    (around s mark (own s mark blocks)).map (render site) =
      match mark.site with
      | some w => site.around (Site.rebuilt s mark (renderBlocks site blocks)) w
      | none => [Site.rebuilt s mark (renderBlocks site blocks)] := by
  unfold around Site.around
  rw [slot_rebuilt s mark (renderBlocks site blocks) s.blocks]
  cases mark.site with
  | none => simp only [List.map_cons, List.map_nil, render]
  | some w =>
    obtain ⟨kind, probe⟩ := w
    cases kind with
    | returned temporary =>
      cases (Site.rebuilt s mark s.blocks).slot? <;>
        simp only [List.map_cons, List.map_nil, render, Wrap.probe]
    | _ => simp only [List.map_cons, List.map_nil, render, Wrap.probe]

mutual

theorem render_ofMarked : ∀ m : Marked, (ofMarked m).map (render site) = (site.weave m).1
  | .mk s mark blocks => by
    rw [ofMarked, Site.weave, List.map_append, render_ahead, render_around]
    dsimp only
    rw [← render_ofBlocks blocks]
    exact congrArg (mark.hoists.flatMap site.ahead ++ ·) rfl

theorem render_ofBlock : ∀ b : List Marked, renderBlock site (ofBlock b) = (site.weaveBlock b).1
  | [] => by rw [ofBlock, renderBlock, Site.weaveBlock]
  | m :: rest => by
    rw [ofBlock, Site.weaveBlock, renderBlock_eq, List.map_append, render_ofMarked m,
      ← renderBlock_eq, render_ofBlock rest]

theorem render_ofBlocks :
    ∀ bs : List (List Marked), renderBlocks site (ofBlocks bs) = (site.weaveBlocks bs).1
  | [] => by rw [ofBlocks, renderBlocks, Site.weaveBlocks]
  | b :: rest => by
    rw [ofBlocks, renderBlocks, Site.weaveBlocks, render_ofBlock b, render_ofBlocks rest]

end

end Render

/-! ### What is started and stopped -/

theorem allOfBlock_eq (ps : List Piece) : allOfBlock ps = ps.flatMap all := by
  induction ps with
  | nil => rw [allOfBlock]; rfl
  | cons p rest ih => rw [allOfBlock, ih, List.flatMap_cons]

theorem allOfBlock_append (ps qs : List Piece) :
    allOfBlock (ps ++ qs) = allOfBlock ps ++ allOfBlock qs := by
  simp only [allOfBlock_eq, List.flatMap_append]

/-- What pieces do: the calls and the statements that they start and stop, each once, and the statements
of the routine among them. -/
structure Balanced (site : Site) (pieces : List Piece) (wraps : List Wrap) (statements : List Stmt) :
    Prop where
  /-- Every statement of the block, at any depth, is one of the pieces. -/
  walk : ∀ p ∈ pieces, (render site p).walk = (all p).map (render site)
  started : (allOfBlock pieces).filterMap started? = wraps
  stopped : ((allOfBlock pieces).filterMap stopped?).Perm wraps
  kept : ((allOfBlock pieces).filterMap own?).Sublist statements

/-- What the pieces of the blocks of a statement do. -/
structure BalancedBlocks (site : Site) (blocks : List (List Piece)) (wraps : List Wrap)
    (statements : List Stmt) : Prop where
  walk : (renderBlocks site blocks).flatMap (fun b => b.flatMap Stmt.walk) =
    (allOfBlocks blocks).map (render site)
  started : (allOfBlocks blocks).filterMap started? = wraps
  stopped : ((allOfBlocks blocks).filterMap stopped?).Perm wraps
  kept : ((allOfBlocks blocks).filterMap own?).Sublist statements

variable {site : Site} {ps qs : List Piece} {blocks : List (List Piece)} {ws vs : List Wrap}
  {ss ts : List Stmt}

/-- The pieces of a block are its statements. -/
theorem walk_renderBlock (walk : ∀ p ∈ ps, (render site p).walk = (all p).map (render site)) :
    (renderBlock site ps).flatMap Stmt.walk = (allOfBlock ps).map (render site) := by
  rw [renderBlock_eq, allOfBlock_eq, List.flatMap_map, List.map_flatMap]
  exact List.flatMap_congr walk

/-- A piece with no pieces below is one statement. -/
theorem walk_of_alone {p : Piece} (alone : all p = [p]) (none : (render site p).blocks = []) :
    (render site p).walk = (all p).map (render site) := by
  rw [alone, Stmt.walk_eq, none]
  rfl

namespace Balanced

theorem nil (site : Site) : Balanced site [] [] [] := by
  refine ⟨nofun, ?_, ?_, ?_⟩ <;> rw [allOfBlock]
  · rfl
  · exact .refl _
  · exact .refl _

theorem append (first : Balanced site ps ws ss) (second : Balanced site qs vs ts) :
    Balanced site (ps ++ qs) (ws ++ vs) (ss ++ ts) where
  walk := List.forall_mem_append.mpr ⟨first.walk, second.walk⟩
  started := by rw [allOfBlock_append, List.filterMap_append, first.started, second.started]
  stopped := by
    rw [allOfBlock_append, List.filterMap_append]
    exact first.stopped.append second.stopped
  kept := by
    rw [allOfBlock_append, List.filterMap_append]
    exact first.kept.append second.kept

/-- A piece that neither starts nor stops a probe, nor is a statement of the routine, does nothing. -/
theorem plain {p : Piece} (alone : all p = [p]) (leaf : (render site p).blocks = [])
    (neither : started? p = none ∧ stopped? p = none ∧ own? p = none) : Balanced site [p] [] [] := by
  obtain ⟨starts, stops, own⟩ := neither
  refine ⟨List.forall_mem_singleton.mpr (walk_of_alone alone leaf), ?_, ?_, ?_⟩ <;>
    rw [allOfBlock_eq, List.flatMap_singleton, alone, List.filterMap_cons]
  · rw [starts]
    rfl
  · rw [stops]
    exact .refl _
  · rw [own]
    exact .refl _

theorem bind (site : Site) (temporary : String) (value : Expr) :
    Balanced site [.bind temporary value] [] [] :=
  plain (by simp only [all]) (by rw [render]; rfl) ⟨rfl, rfl, rfl⟩

theorem give (site : Site) (temporary : String) : Balanced site [.give temporary] [] [] :=
  plain (by simp only [all]) (by rw [render]; rfl) ⟨rfl, rfl, rfl⟩

/-- What stands between the start and the stop of a probe is wrapped in it. -/
theorem between (inner : Balanced site ps ws ss) (w : Wrap) :
    Balanced site (.start w :: (ps ++ [.stop w])) (w :: ws) ss where
  walk := by
    refine List.forall_mem_cons.mpr ⟨?_, List.forall_mem_append.mpr
      ⟨inner.walk, List.forall_mem_singleton.mpr ?_⟩⟩
    · exact walk_of_alone (by simp only [all]) (by rw [render]; rfl)
    · exact walk_of_alone (by simp only [all]) (by rw [render]; rfl)
  started := by
    simp only [allOfBlock, allOfBlock_append, all, List.filterMap_append, inner.started]
    exact congrArg (w :: ·) (List.append_nil ws)
  stopped := by
    simp only [allOfBlock, allOfBlock_append, all, List.filterMap_append]
    exact (inner.stopped.append_right [w]).trans List.perm_append_comm
  kept := by
    simp only [allOfBlock, allOfBlock_append, all, List.filterMap_append]
    exact (List.append_nil _).symm ▸ inner.kept

/-- A statement of the routine does what its blocks do. -/
theorem own (inner : BalancedBlocks site blocks ws ss) {s : Stmt}
    (fits : blocks.length = s.blocks.length) (mark : Mark) :
    Balanced site [.own s mark blocks] ws (s :: ss) where
  walk := by
    have rendered : (renderBlocks site blocks).length = s.blocks.length := by
      rw [renderBlocks_eq, List.length_map, fits]
    rw [List.forall_mem_singleton, render, all, Stmt.walk_eq, blocks_rebuilt mark rendered,
      inner.walk, List.map_cons, render]
  started := by
    simp only [allOfBlock, all, List.append_nil]
    exact inner.started
  stopped := by
    simp only [allOfBlock, all, List.append_nil]
    exact inner.stopped
  kept := by
    simp only [allOfBlock, all, List.append_nil]
    exact inner.kept.cons_cons s

theorem ahead (site : Site) (hoists : List Hoist) :
    Balanced site (hoists.flatMap Piece.ahead) (hoists.map .ahead) [] := by
  induction hoists with
  | nil => exact nil site
  | cons hoist rest ih =>
    exact ((bind site hoist.temporary hoist.bound).between (.ahead hoist)).append ih

/-- Statements that serve no probe of the routine change nothing, wherever they are put. -/
theorem insert (balanced : Balanced site ps ws ss) (before after : List Piece)
    (whole : ps = before ++ after) (extras : List Stmt) :
    Balanced site (before ++ extras.map extra ++ after) ws ss := by
  subst whole
  have nothing {β : Type} {f : Piece → Option β} (none : ∀ s, f (extra s) = none) :
      (allOfBlock (before ++ extras.map extra ++ after)).filterMap f =
        (allOfBlock (before ++ after)).filterMap f := by
    have silent : (allOfBlock (extras.map extra)).filterMap f = [] := by
      rw [allOfBlock_eq, List.flatMap_map, List.filterMap_eq_nil_iff]
      intro p member
      obtain ⟨s, -, within⟩ := List.mem_flatMap.mp member
      rw [all] at within
      obtain ⟨t, -, rfl⟩ := List.mem_map.mp within
      exact none t
    simp only [allOfBlock_append, List.filterMap_append, silent, List.append_nil]
  obtain ⟨first, last⟩ := List.forall_mem_append.mp balanced.walk
  refine ⟨?_, (nothing fun _ => rfl).trans balanced.started, ?_, ?_⟩
  · refine List.forall_mem_append.mpr ⟨List.forall_mem_append.mpr ⟨first, fun p member => ?_⟩, last⟩
    obtain ⟨s, -, rfl⟩ := List.mem_map.mp member
    rw [all, List.map_map, render]
    refine (List.map_id _).symm.trans (List.map_congr_left fun t _ => ?_)
    rw [Function.comp_apply, render, id]
  · rw [nothing fun _ => rfl]
    exact balanced.stopped
  · rw [nothing fun _ => rfl]
    exact balanced.kept

end Balanced

theorem BalancedBlocks.nil (site : Site) : BalancedBlocks site [] [] [] := by
  refine ⟨?_, ?_, ?_, ?_⟩ <;> rw [allOfBlocks]
  · rw [renderBlocks]
    rfl
  · rfl
  · exact .refl _
  · exact .refl _

/-- A statement is put between the start and the stop of its site, or its value is that is returned
through a temporary; a `return` has no blocks. -/
theorem balanced_around {s : Stmt} {mark : Mark} (inner : BalancedBlocks site blocks ws ss)
    (fits : blocks.length = s.blocks.length)
    (plain : ∀ w, mark.site = some w → w.temporary?.isSome = true → ws = [] ∧ ss = []) :
    Balanced site (around s mark (.own s mark blocks))
      ((mark.site.map (Wrap.around s)).toList ++ ws) (s :: ss) := by
  have own := Balanced.own inner fits mark
  unfold around
  cases found : mark.site with
  | none => exact own
  | some w =>
    dsimp only
    split
    · rename_i temporary value returned _
      obtain ⟨rfl, rfl⟩ := plain w found (by rw [StatementSite.temporary?, returned]; rfl)
      have given := ((Balanced.bind site temporary value).between (.around s w)).append (.give site temporary)
      exact { given with kept := given.kept.trans (List.nil_sublist _) }
    · exact own.between (.around s w)

end Piece

/-! ### Marked routines -/

namespace Timing

variable {timing : Timing} {site : Site}

/-- Whether what mapping recorded for a statement is started and stopped. -/
def BalancedStmt (timing : Timing) (site : Site) (s : Stmt) : Prop :=
  ∀ m : Mapping, Piece.Balanced site (Piece.ofMarked (timing.markStmt s m).1)
    ((timing.markStmt s m).1.nodes.flatMap Wrap.ofNode) s.walk

theorem balanced_block {b : List Stmt} (each : ∀ s ∈ b, BalancedStmt timing site s) (m : Mapping) :
    Piece.Balanced site (Piece.ofBlock (timing.markBlock b m).1)
      (recorded (timing.markBlock b m).1) (b.flatMap Stmt.walk) := by
  induction b generalizing m with
  | nil =>
    rw [markBlock, Piece.ofBlock, recorded, Marked.nodesOfBlock]
    exact .nil site
  | cons s rest ih =>
    simp only [markBlock, Piece.ofBlock, recorded, Marked.nodesOfBlock, List.flatMap_append]
    exact (each s List.mem_cons_self m).append (ih (fun x member => each x (.tail _ member)) _)

theorem balanced_blocks {bs : List (List Stmt)}
    (each : ∀ b ∈ bs, ∀ s ∈ b, BalancedStmt timing site s) (m : Mapping) :
    Piece.BalancedBlocks site (Piece.ofBlocks (timing.markBlocks bs m).1)
      ((Marked.nodesOfBlocks (timing.markBlocks bs m).1).flatMap Wrap.ofNode)
      (bs.flatMap fun b => b.flatMap Stmt.walk) := by
  induction bs generalizing m with
  | nil =>
    rw [markBlocks, Piece.ofBlocks, Marked.nodesOfBlocks]
    exact .nil site
  | cons b rest ih =>
    have first := balanced_block (each b List.mem_cons_self) m
    have others := ih (fun x member => each x (.tail _ member)) (timing.markBlock b m).2
    simp only [markBlocks, Piece.ofBlocks, Marked.nodesOfBlocks, List.flatMap_append,
      List.flatMap_cons]
    refine ⟨?_, ?_, ?_, ?_⟩ <;> rw [Piece.allOfBlocks]
    · rw [Piece.renderBlocks, List.flatMap_cons, List.map_append, others.walk,
        Piece.walk_renderBlock first.walk]
    · rw [List.filterMap_append, first.started, others.started]
      rfl
    · rw [List.filterMap_append]
      exact first.stopped.append others.stopped
    · rw [List.filterMap_append]
      exact first.kept.append others.kept

theorem balanced_stmt (site : Site) (s : Stmt) : BalancedStmt timing site s := by
  induction s using Stmt.block_induction with
  | step s blocks =>
    intro m
    rw [Stmt.walk_eq]
    cases inside : s.opensScope with
    | true =>
      rw [timing.markStmt_of_opensScope inside, Piece.ofMarked, Marked.nodes, Marked.nodesOfBlocks,
        Stmt.blocks_of_opensScope inside, Piece.ofBlocks]
      exact .own (.nil site) (by rw [Stmt.blocks_of_opensScope inside]; rfl) ⟨none, [], none⟩
    | false =>
      have inner := balanced_blocks blocks (timing.mark s m).2
      rw [timing.markStmt_eq inside]
      dsimp only
      rw [Piece.ofMarked, Marked.nodes, List.flatMap_cons, Wrap.ofNode, List.append_assoc]
      refine (Piece.Balanced.ahead site _).append
        (Piece.balanced_around inner ?_ fun w found returns => ?_)
      · rw [Piece.length_ofBlocks, timing.length_markBlocks]
      · obtain ⟨lines, e, rfl⟩ := (timing.mark_holds s m).returns w found returns
        have none : (Stmt.returned lines (some e)).blocks = [] := rfl
        rw [none, markBlocks, Marked.nodesOfBlocks]
        exact ⟨rfl, rfl⟩

/-- All that is recorded in a marked body is started once and stopped once. -/
theorem balanced_markBlock (site : Site) (b : List Stmt) (m : Mapping) :
    Piece.Balanced site (Piece.ofBlock (timing.markBlock b m).1)
      (recorded (timing.markBlock b m).1) (b.flatMap Stmt.walk) :=
  balanced_block (fun s _ => balanced_stmt site s) m

end Timing

end ProbeWeave.Weaving
