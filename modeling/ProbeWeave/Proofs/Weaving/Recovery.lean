import Mathlib
import ProbeWeave.Proofs.Weaving.BoundOnce
import ProbeWeave.Proofs.Weaving.Erasure
import ProbeWeave.Weaving.Plan

/-! # What erasing the probes recovers

Erasing a rebuilt body gives back the body from which it was rebuilt, up to the places of its
`return`s, as long as no temporary is the name through which a probe is reached.
-/

namespace ProbeWeave.Weaving

open Syntax Supply Hoisting

/-! ## Names through which probes are reached

Starting and stopping a probe reads the first of the names that lead to it, so a rebuilt body reads
such a name at least twice.
-/

namespace Site

variable (site : Site)

/-- The first name of those that lead to a probe is read. -/
theorem uses_probe_head {id probe : String} (leads : (site.chain probe).head? = some id) :
    (dottedExpr (site.probeRef probe)).uses id = [.load] := by
  obtain ⟨first, rest, same⟩ := memberChain_eq _
  rw [chain, dottedExpr, same, dottedParts?_foldl rest rfl] at leads
  obtain rfl : first = id := Option.some.inj leads
  rw [dottedExpr, same, uses_foldl, loaded, Expr.uses_name, if_pos rfl]

/-- Statements that start and stop a probe read the name that leads to it twice. -/
theorem reads_of_started {id probe : String} (leads : (site.chain probe).head? = some id)
    (before between after : List Stmt) :
    2 ≤ (Stmt.blockUses id
      (before ++ site.start probe :: (between ++ site.stop probe :: after))).count .load := by
  have started : (site.start probe).uses id = [.load] := by
    rw [start, Stmt.uses_eq]
    simp [Stmt.children, methodCall, callOf, site.uses_probe_head leads]
  have stopped : (site.stop probe).uses id = [.load] := by
    rw [stop, Stmt.uses_eq]
    simp [Stmt.children, methodCall, callOf, site.uses_probe_head leads]
  simp only [Stmt.blockUses, List.flatMap_append, List.flatMap_cons, started, stopped,
    List.count_append, List.count_singleton_self]
  omega

theorem reads_apply {id probe : String} (leads : (site.chain probe).head? = some id) (s : Stmt)
    {mark : Mark} (serves : probe ∈ mark.probes) :
    2 ≤ (Stmt.blockUses id (site.apply s mark)).count .load := by
  rcases List.mem_append.mp serves with ahead | around
  · obtain ⟨g, member, rfl⟩ := List.mem_map.mp ahead
    obtain ⟨early, late, split⟩ := List.append_of_mem member
    simp only [apply, split, List.flatMap_append, List.flatMap_cons, List.append_assoc, Site.ahead]
    exact site.reads_of_started leads _ [_] _
  · obtain ⟨own, marked, rfl⟩ := Option.mem_toList.mp around |> Option.map_eq_some_iff.mp
    simp only [apply, marked, Site.around]
    split
    · exact site.reads_of_started leads _ [_] _
    · exact site.reads_of_started leads _ [_] _

theorem reads_block {id : String} {s : Stmt} {mark : Mark} {before after : Supply}
    (holds : Timing.Holds s mark before after) (unused : s.uses id = [])
    {bodies : List (List Stmt)} (fits : bodies.length = s.blocks.length) {b : List Stmt}
    (block : b ∈ bodies) (reads : 2 ≤ (Stmt.blockUses id b).count .load) :
    2 ≤ (Stmt.blockUses id (site.apply (s.withBlocks bodies) mark)).count .load := by
  obtain ⟨ms, stays, bs, -, -, perm, uses⟩ := uses_rebuilt holds unused fits
  have inside : 2 ≤ ((rebuilt s mark bodies).uses id).count .load := by
    change Stmt.uses id (rebuilt s mark bodies) = _ at uses
    obtain ⟨early, late, split⟩ := List.append_of_mem (perm.mem_iff.mpr block)
    rw [uses, split]
    simp only [List.flatMap_append, List.flatMap_cons, List.count_append]
    omega
  have kept : rebuilt s mark bodies ∈ site.apply (s.withBlocks bodies) mark := by
    rw [apply_eq]
    refine List.mem_append_right _ ?_
    cases own : mark.site with
    | none => exact List.mem_cons_self
    | some own' =>
      cases direct : own'.temporary? with
      | none => simp [around_eq site direct]
      | some temporary =>
        obtain ⟨lines, e, rfl⟩ := holds.returns own' own (by rw [direct]; rfl)
        obtain rfl : bodies = [] := List.length_eq_zero_iff.mp fits
        cases block
  obtain ⟨early, late, split⟩ := List.append_of_mem kept
  rw [split]
  simp only [Stmt.blockUses, List.flatMap_append, List.flatMap_cons, List.count_append]
  omega

end Site

section Body

variable (timing : Timing) (site : Site) {id : String}

/-- Rebuilding a statement reads a name that leads to one of its probes more than once. -/
def ReadsHead (timing : Timing) (site : Site) (id : String) (s : Stmt) : Prop :=
  s.uses id = [] → ∀ m : Mapping, ∀ mark ∈ (timing.markStmt s m).1.marks, ∀ probe ∈ mark.probes,
    (site.chain probe).head? = some id →
      2 ≤ (Stmt.blockUses id (site.weave (timing.markStmt s m).1).1).count .load

theorem reads_blockOf {b : List Stmt} (each : ∀ s ∈ b, ReadsHead timing site id s)
    (unused : ∀ s ∈ b, s.uses id = []) (m : Mapping) {mark : Mark}
    (marked : mark ∈ Marked.marksOfBlock (timing.markBlock b m).1) {probe : String}
    (serves : probe ∈ mark.probes) (leads : (site.chain probe).head? = some id) :
    2 ≤ (Stmt.blockUses id (site.weaveBlock (timing.markBlock b m).1).1).count .load := by
  induction b generalizing m with
  | nil =>
    rw [Timing.markBlock] at marked
    cases marked
  | cons s rest ih =>
    simp only [Timing.markBlock, Marked.marksOfBlock, List.mem_append] at marked
    simp only [Timing.markBlock, Site.weaveBlock, Stmt.blockUses, List.flatMap_append,
      List.count_append]
    rcases marked with here | there
    · have := each s List.mem_cons_self (unused s List.mem_cons_self) m mark here probe serves leads
      simp only [Stmt.blockUses] at this
      omega
    · have := ih (fun x member => each x (.tail _ member)) (fun x member => unused x (.tail _ member))
        _ there
      simp only [Stmt.blockUses] at this
      omega

theorem reads_blocksOf {bs : List (List Stmt)}
    (each : ∀ b ∈ bs, ∀ s ∈ b, ReadsHead timing site id s)
    (unused : ∀ b ∈ bs, ∀ s ∈ b, s.uses id = []) (m : Mapping) {mark : Mark}
    (marked : mark ∈ Marked.marksOfBlocks (timing.markBlocks bs m).1) {probe : String}
    (serves : probe ∈ mark.probes) (leads : (site.chain probe).head? = some id) :
    ∃ b ∈ (timing.markBlocks bs m).1.map fun b => (site.weaveBlock b).1,
      2 ≤ (Stmt.blockUses id b).count .load := by
  induction bs generalizing m with
  | nil => cases marked
  | cons b rest ih =>
    simp only [Timing.markBlocks, Marked.marksOfBlocks, List.mem_append] at marked
    simp only [Timing.markBlocks, List.map_cons]
    rcases marked with here | there
    · exact ⟨_, List.mem_cons_self, reads_blockOf timing site (each b List.mem_cons_self)
        (unused b List.mem_cons_self) m here serves leads⟩
    · obtain ⟨c, member, reads⟩ := ih (fun x member => each x (.tail _ member))
        (fun x member => unused x (.tail _ member)) _ there
      exact ⟨c, .tail _ member, reads⟩

theorem readsHead_stmt (s : Stmt) : ReadsHead timing site id s := by
  induction s using Stmt.block_induction with
  | step s blocks =>
    intro unused m mark marked probe serves leads
    cases inside : s.opensScope with
    | true =>
      rw [timing.markStmt_of_opensScope inside] at marked
      simp only [Marked.marks, Marked.marksOfBlocks, List.mem_singleton] at marked
      subst marked
      cases serves
    | false =>
      have below : ∀ b ∈ s.blocks, ∀ x ∈ b, x.uses id = [] :=
        fun b block x member => Stmt.uses_of_block unused block member
      rw [timing.markStmt_eq inside] at marked ⊢
      simp only [Marked.marks, List.mem_cons] at marked
      rw [Site.weave_mk]
      rcases marked with rfl | inner
      · exact site.reads_apply leads _ serves
      · obtain ⟨b, member, reads⟩ := reads_blocksOf timing site blocks below _ inner serves leads
        exact site.reads_block (timing.mark_holds s m) unused (by simp [timing.length_markBlocks])
          member reads

end Body

namespace Eraser

variable {E : Eraser} {site : Site}

/-! ## One statement -/

/-- Erasing a rebuilt statement puts its slot back and erases its blocks. -/
theorem eraseBlock_rebuilt {s : Stmt} {mark : Mark} {before after : Supply}
    (holds : Timing.Holds s mark before after) (untouched : E.Untouched s) (apart : E.Apart)
    (known : ∀ t ∈ mark.temporaries, t ∈ E.temporaries) {bodies : List (List Stmt)}
    (fits : bodies.length = s.blocks.length) {env : Bindings} (clean : E.Clean env)
    (binds : Binds env mark.hoists) (rest : List Stmt) :
    E.eraseBlock env (Site.rebuilt s mark bodies :: rest) =
      s.withBlocks (bodies.map (E.eraseBlock [])) :: E.eraseBlock env rest := by
  rw [eraseBlock_other (isProbeStatement_rebuilt holds untouched.silent apart known bodies)
    (binding?_rebuilt mark untouched bodies)]
  congr 1
  cases slot : s.slot? with
  | none =>
    obtain ⟨stays, -⟩ := holds.slotless slot
    have kept : (s.withBlocks bodies).slot? = none := by rw [Stmt.slot_withBlocks, slot]
    simp only [Site.rebuilt, stays, Stmt.inlineSlot, kept]
    rw [Stmt.blocks_withBlocks fits, Stmt.withBlocks_withBlocks fits (by simpa using fits)]
  | some e =>
    obtain ⟨e', ms, _, stays, hoists, walked⟩ := holds.slotted e slot
    have back : e'.inline env = e :=
      walked.inlined env (clean.leaves untouched slot) (hoists ▸ binds)
    have kept : ((s.withBlocks bodies).withSlot e').slot? = some e' :=
      Stmt.slot_withSlot (by rw [Stmt.slot_withBlocks, slot]) e'
    simp only [Site.rebuilt, stays, Stmt.inlineSlot, kept, back, Stmt.withSlot_withSlot,
      Stmt.blocks_withSlot]
    rw [← Stmt.withSlot_withBlocks fits, Stmt.withSlot_slot slot, Stmt.blocks_withBlocks fits,
      Stmt.withBlocks_withBlocks fits (by simpa using fits)]

/-- Erasing the calls that run ahead of a marked statement leaves their temporaries to stand for
them. -/
theorem eraseBlock_hoists {s : Stmt} {mark : Mark} {before after : Supply}
    (holds : Timing.Holds s mark before after) (untouched : E.Untouched s)
    (known : ∀ t ∈ mark.temporaries, t ∈ E.temporaries)
    (probes : ∀ probe ∈ mark.probes, site.chain probe ∈ E.references) {env : Bindings}
    (clean : E.Clean env) :
    ∃ env', E.Clean env' ∧ Binds env' mark.hoists ∧ ∀ rest,
      E.eraseBlock env (mark.hoists.flatMap site.ahead ++ rest) = E.eraseBlock env' rest := by
  cases slot : s.slot? with
  | none =>
    rw [(holds.slotless slot).2]
    exact ⟨env, clean, by simp [Binds], fun _ => rfl⟩
  | some e =>
    obtain ⟨e', ms, supply, -, hoists, walked⟩ := holds.slotted e slot
    have temporary : ∀ g ∈ mark.hoists, g.temporary ∈ E.temporaries := fun g member =>
      known _ (List.mem_append_right _ (List.mem_map_of_mem member))
    have probe : ∀ g ∈ mark.hoists, site.chain g.probe ∈ E.references := fun g member =>
      probes _ (List.mem_append_left _ (List.mem_map_of_mem member))
    have distinct : ((([] : List Hoist) ++ mark.hoists).map Hoist.temporary).Nodup :=
      (List.nodup_append.mp holds.issued.nodup).2.1
    exact eraseBlock_ahead clean (fun env clean => clean.leaves untouched slot) (by simp [Binds])
      (hoists ▸ walked.restores) distinct temporary probe

/-- Erasing a call that is returned through a temporary gives the `return` of the call. -/
theorem eraseBlock_returned {own : StatementSite} {t : String} (returns : own.temporary? = some t)
    (temporary : t ∈ E.temporaries) (known : site.chain own.probe ∈ E.references) (lines : Lines)
    (e : Expr) (env : Bindings) (rest : List Stmt) :
    E.eraseBlock env (site.around (.returned lines (some e)) own ++ rest) =
      .returned .nowhere (some (e.inline env)) ::
        E.eraseBlock ((t, e.inline env) :: env) rest := by
  simp only [Site.around_returned site returns, List.cons_append, List.nil_append]
  rw [eraseBlock_probe (isProbeStatement_start known), eraseBlock_bindName temporary,
    eraseBlock_probe (isProbeStatement_stop known), eraseBlock_returnName]

/-- Erasing what takes the place of a statement gives the statement with its blocks erased. -/
theorem eraseBlock_apply {s : Stmt} {mark : Mark} {before after : Supply}
    (holds : Timing.Holds s mark before after) (untouched : E.Untouched s) (apart : E.Apart)
    (known : ∀ t ∈ mark.temporaries, t ∈ E.temporaries)
    (probes : ∀ probe ∈ mark.probes, site.chain probe ∈ E.references)
    {bodies : List (List Stmt)} (fits : bodies.length = s.blocks.length)
    (same : (bodies.map (E.eraseBlock [])).map (List.map Stmt.unplaced) =
      s.blocks.map (List.map Stmt.unplaced))
    {env : Bindings} (clean : E.Clean env) (rest : List Stmt) :
    ∃ env' s', E.Clean env' ∧ s'.unplaced = s.unplaced ∧
      E.eraseBlock env (site.apply (s.withBlocks bodies) mark ++ rest) =
        s' :: E.eraseBlock env' rest := by
  obtain ⟨env', clean', binds, ahead⟩ :=
    eraseBlock_hoists holds untouched known probes clean
  have rebuilt := eraseBlock_rebuilt holds untouched apart known fits clean' binds
  rw [Site.apply_eq, List.append_assoc, ahead]
  cases own : mark.site with
  | none =>
    refine ⟨env', _, clean', Stmt.unplaced_withBlocks same, ?_⟩
    exact rebuilt rest
  | some own' =>
    have probe : site.chain own'.probe ∈ E.references :=
      probes _ (List.mem_append_right _ (by rw [own]; exact List.mem_cons_self))
    cases direct : own'.temporary? with
    | none =>
      refine ⟨env', _, clean', Stmt.unplaced_withBlocks same, ?_⟩
      simp only [Site.around_eq site direct, List.cons_append, List.nil_append]
      rw [eraseBlock_probe (isProbeStatement_start probe), rebuilt,
        eraseBlock_probe (isProbeStatement_stop probe)]
    | some temporary =>
      obtain ⟨lines, e, rfl⟩ := holds.returns own' own (by rw [direct]; rfl)
      obtain ⟨e', ms, supply, slot, hoists, walked⟩ := holds.slotted e rfl
      obtain rfl : bodies = [] := List.length_eq_zero_iff.mp fits
      have back : e'.inline env' = e :=
        walked.inlined env' (clean'.leaves untouched rfl) (hoists ▸ binds)
      have isTemporary : temporary ∈ E.temporaries := by
        refine known _ (List.mem_append_left _ ?_)
        rw [own, Option.bind_some, direct]
        exact List.mem_cons_self
      refine ⟨(temporary, e) :: env', .returned .nowhere (some e), clean'.bind isTemporary e, ?_, ?_⟩
      · simp [Stmt.unplaced_eq, Stmt.returnNowhere, Stmt.blocks]
      · simp only [Site.rebuilt_returned slot]
        rw [eraseBlock_returned direct isTemporary probe, back]

/-! ## A whole body -/

section Body

variable (timing : Timing) (site : Site)

/-- Erasing what a statement was rebuilt to gives the statement, but for places of `return`s. -/
def Recovers (E : Eraser) (timing : Timing) (site : Site) (s : Stmt) : Prop :=
  E.Untouched s → ∀ m : Mapping, E.Knows site (timing.markStmt s m).1.marks →
    ∀ env, E.Clean env → ∀ rest, ∃ env' s', E.Clean env' ∧ s'.unplaced = s.unplaced ∧
      E.eraseBlock env ((site.weave (timing.markStmt s m).1).1 ++ rest) =
        s' :: E.eraseBlock env' rest

theorem erase_block {b : List Stmt} (each : ∀ s ∈ b, E.Recovers timing site s)
    (untouched : ∀ s ∈ b, E.Untouched s) (m : Mapping)
    (knows : E.Knows site (Marked.marksOfBlock (timing.markBlock b m).1)) {env : Bindings}
    (clean : E.Clean env) :
    (E.eraseBlock env (site.weaveBlock (timing.markBlock b m).1).1).map Stmt.unplaced =
      b.map Stmt.unplaced := by
  induction b generalizing m env with
  | nil =>
    rw [Timing.markBlock, Site.weaveBlock, eraseBlock_nil]
  | cons s rest ih =>
    simp only [Timing.markBlock, Marked.marksOfBlock] at knows
    obtain ⟨first, others⟩ := knows.append
    simp only [Timing.markBlock, Site.weaveBlock]
    obtain ⟨env', s', clean', same, erased⟩ := each s List.mem_cons_self
      (untouched s List.mem_cons_self) m first env clean
      (site.weaveBlock (timing.markBlock rest (timing.markStmt s m).2).1).1
    rw [erased, List.map_cons, List.map_cons, same, ih (fun x member => each x (.tail _ member))
      (fun x member => untouched x (.tail _ member)) _ others clean']

theorem erase_blocks {bs : List (List Stmt)} (each : ∀ b ∈ bs, ∀ s ∈ b, E.Recovers timing site s)
    (untouched : ∀ b ∈ bs, ∀ s ∈ b, E.Untouched s) (m : Mapping)
    (knows : E.Knows site (Marked.marksOfBlocks (timing.markBlocks bs m).1)) :
    (((timing.markBlocks bs m).1.map fun b => (site.weaveBlock b).1).map (E.eraseBlock [])).map
        (List.map Stmt.unplaced) =
      bs.map (List.map Stmt.unplaced) := by
  induction bs generalizing m with
  | nil => rfl
  | cons b rest ih =>
    simp only [Timing.markBlocks, Marked.marksOfBlocks] at knows
    obtain ⟨first, others⟩ := knows.append
    have same := ih (fun x member => each x (.tail _ member))
      (fun x member => untouched x (.tail _ member)) _ others
    simp only [Timing.markBlocks, List.map_cons]
    rw [erase_block timing site (each b List.mem_cons_self) (untouched b List.mem_cons_self) m first
      (fun _ _ => rfl), same]

theorem recovers_stmt (apart : E.Apart) (s : Stmt) : E.Recovers timing site s := by
  induction s using Stmt.block_induction with
  | step s blocks =>
    intro untouched m knows env clean rest
    cases inside : s.opensScope with
    | true =>
      rw [timing.markStmt_of_opensScope inside, Site.weave_mk, List.map_nil]
      have blocks := Stmt.blocks_of_opensScope inside
      exact eraseBlock_apply (.of_opensScope inside m.supply) untouched apart
        (by simp [Mark.temporaries]) (by simp [Mark.probes]) (by simp [blocks]) (by simp [blocks])
        clean rest
    | false =>
      have below : ∀ b ∈ s.blocks, ∀ x ∈ b, E.Untouched x :=
        fun b block x member => untouched.block block member
      rw [timing.markStmt_eq inside] at knows ⊢
      rw [Marked.marks, ← List.singleton_append] at knows
      obtain ⟨own, inner⟩ := knows.append
      rw [Site.weave_mk]
      refine eraseBlock_apply (timing.mark_holds s m) untouched apart ?_
        (own.probes _ List.mem_cons_self) ?_ (erase_blocks timing site blocks below _ inner) clean rest
      · simpa using own.temporaries
      · simp [timing.length_markBlocks]

end Body

/-- In a rebuilt body that used no temporary and mentioned no probe, every temporary is bound once
and then read once exactly when no temporary is the first name of those that lead to a probe, and
then erasing the probes gives back the body. -/
theorem weaveBlock_recoverable (timing : Timing) (site : Site) (body : List Stmt) (m : Mapping)
    (untouched : ∀ s ∈ body, (ofMarked site (timing.markBlock body m).1).Untouched s) :
    let marked := (timing.markBlock body m).1
    let rebuilt := (site.weaveBlock marked).1
    let E := ofMarked site marked
    (E.Apart → (E.eraseBlock [] rebuilt).map Stmt.unplaced = body.map Stmt.unplaced) ∧
      ((∀ t ∈ E.temporaries, Stmt.blockUses t rebuilt = [.store, .load]) ↔ E.Apart) := by
  intro marked rebuilt E
  refine ⟨fun apart => ?_, fun once => ?_, fun apart t temporary => ?_⟩
  · exact erase_block timing site (fun s _ => recovers_stmt timing site apart s) untouched m
      (knows_ofMarked site marked) fun _ _ => rfl
  · refine (apart_iff site marked).mpr fun t temporary mark member probe serves leads => ?_
    have reads := reads_blockOf timing site (fun s _ => readsHead_stmt timing site s)
      (fun s member => (untouched s member).fresh t temporary) m member serves leads
    have bound : Stmt.blockUses t (site.weaveBlock (timing.markBlock body m).1).1 = [.store, .load] :=
      once t temporary
    rw [bound] at reads
    exact absurd reads (by decide)
  · have whole := whole_weaveBlock timing site
      (fun s member => (untouched s member).fresh t temporary) m
      ((apart_iff site marked).mp apart t temporary)
    exact whole.bound temporary

/-- `f(argument)` -/
def callF (argument : Expr) : Expr :=
  .call .nowhere (loaded "f") [argument] []

/-- `if f(n): return f(f(n))` -/
def testThenReturn : Stmt :=
  .branch .nowhere (callF (loaded "n")) [.returned .nowhere (some (callF (callF (loaded "n"))))] []

theorem ofMarked_testThenReturn :
    ofMarked (declaredIn (some "A")) (timesAll.markBlock [testThenReturn] (unmapped "t")).1 =
      ⟨[["A", "probe1_f"], ["A", "probe1_f"], ["A", "probe1_f"]], ["t1", "t2", "t3"]⟩ := by
  cbv

/-- All three calls of `if f(n): return f(f(n))` go through temporaries and come back. -/
theorem testThenReturn_recovered :
    let rebuilt := ((declaredIn (some "A")).weaveBlock
      (timesAll.markBlock [testThenReturn] (unmapped "t")).1).1
    let E : Eraser := ⟨[["A", "probe1_f"], ["A", "probe1_f"], ["A", "probe1_f"]], ["t1", "t2", "t3"]⟩
    (E.eraseBlock [] rebuilt).map Stmt.unplaced = [testThenReturn].map Stmt.unplaced ∧
      ∀ t ∈ E.temporaries, Stmt.blockUses t rebuilt = [.store, .load] := by
  have chains : (Node.stmt testThenReturn).chains = [["f"], ["n"], ["f"], ["f"], ["n"]] := by cbv
  have recovered :=
    weaveBlock_recoverable timesAll (declaredIn (some "A")) [testThenReturn] (unmapped "t")
  simp only [ofMarked_testThenReturn, List.forall_mem_singleton] at recovered
  obtain ⟨erased, once⟩ := recovered
    { fresh := by
        simp only [List.forall_mem_cons]
        exact ⟨by cbv, by cbv, by cbv, List.forall_mem_nil _⟩
      silent := by
        rw [Mentions, chains]
        decide }
  have apart : Apart
      ⟨[["A", "probe1_f"], ["A", "probe1_f"], ["A", "probe1_f"]], ["t1", "t2", "t3"]⟩ := by
    rw [Apart]
    decide
  exact ⟨erased apart, once.mpr apart⟩

/-- `return f()` -/
def returnF : Stmt :=
  .returned .nowhere (some (.call .nowhere (loaded "f") [] []))

theorem markBlock_returnF :
    (timesAll.markBlock [returnF] (unmapped temporaryStem)).1 =
      [.mk returnF ⟨some ⟨.returned "_timetrack_result1", "probe1_f"⟩, [],
        some (.call .nowhere (loaded "f") [] [])⟩ []] := by
  have next : (unmapped temporaryStem).supply.next.1 = "_timetrack_result1" := by decide +kernel
  simp [← next, timesAll, returnF, loaded, Timing.markBlock, Timing.markStmt, Timing.mark,
    Timing.callSite?, Timing.probeOfValue, Timing.hoistSlot, Stmt.slot?, Stmt.isLoop,
    Expr.unwrapCall?, Expr.asCall?, Call.toExpr, Expr.enteredParts, Expr.withEntered, refillKeywords,
    innerCall?, refillCall, visitOperands_eq, visitEach, visit_name, Hoisting.start]

theorem ofMarked_returnF :
    ofMarked (declaredIn (some "_timetrack_result1"))
        (timesAll.markBlock [returnF] (unmapped temporaryStem)).1 =
      ⟨[["_timetrack_result1", "probe1_f"]], ["_timetrack_result1"]⟩ := by
  have chain : (declaredIn (some "_timetrack_result1")).chain "probe1_f" =
      ["_timetrack_result1", "probe1_f"] := by
    cbv
  rw [markBlock_returnF, ← chain]
  rfl

/-- If the class that declares the probes is called like a temporary, starting and stopping probes
reads the temporary, too. -/
theorem class_named_like_temporary :
    let rebuilt := ((declaredIn (some "_timetrack_result1")).weaveBlock
      (timesAll.markBlock [returnF] (unmapped temporaryStem)).1).1
    let E : Eraser := ⟨[["_timetrack_result1", "probe1_f"]], ["_timetrack_result1"]⟩
    ofMarked (declaredIn (some "_timetrack_result1"))
        (timesAll.markBlock [returnF] (unmapped temporaryStem)).1 = E ∧
      E.Untouched returnF ∧ ¬ ∀ t ∈ E.temporaries, Stmt.blockUses t rebuilt = [.store, .load] := by
  have chains : (Node.stmt returnF).chains = [["f"]] := by cbv
  have fresh : returnF.uses "_timetrack_result1" = [] := by
    simp [returnF, Stmt.uses_eq, Stmt.children, loaded]
  refine ⟨ofMarked_returnF, ⟨?_, ?_⟩, fun once => ?_⟩
  · rwa [List.forall_mem_singleton]
  · rw [Mentions, chains]
    decide
  · have reads := reads_blockOf timesAll (declaredIn (some "_timetrack_result1")) (b := [returnF])
      (fun s _ => readsHead_stmt timesAll _ s) (by rwa [List.forall_mem_singleton])
      (unmapped temporaryStem)
      (by rw [markBlock_returnF]; exact List.mem_cons_self) List.mem_cons_self (by cbv)
    rw [once _ List.mem_cons_self] at reads
    exact absurd reads (by decide)

end Eraser

end ProbeWeave.Weaving
