import ProbeWeave.Proofs.Weaving.Marking

/-! # Temporaries in a rebuilt body

In a rebuilt body every temporary is bound once and read once, in this order, and no other name that
the body did not use is used, but for those that lead to probes.
-/

namespace ProbeWeave.Weaving

open Syntax Supply Hoisting

/-! ## Statements that serve probes -/

theorem memberChain_eq (parts : List String) :
    ∃ (first : String) (rest : List String),
      memberChain parts = rest.foldl Expr.member (loaded first) := by
  cases parts with
  | nil => exact ⟨"", [], rfl⟩
  | cons first rest => exact ⟨first, rest, rfl⟩

theorem dottedParts?_foldl (rest : List String) {e : Expr} {parts : List String}
    (chain : e.dottedParts? = some parts) :
    (rest.foldl Expr.member e).dottedParts? = some (parts ++ rest) := by
  induction rest generalizing e parts with
  | nil => simpa using chain
  | cons id rest ih =>
    rw [List.foldl_cons, ih (by rw [Expr.dottedParts?, chain]; rfl)]
    simp

theorem uses_foldl (id : String) (rest : List String) (e : Expr) :
    (rest.foldl Expr.member e).uses id = e.uses id := by
  induction rest generalizing e with
  | nil => rfl
  | cons field rest ih => rw [List.foldl_cons, ih, Expr.uses_member]

namespace Site

variable (site : Site)

/-- The names that lead to a probe. -/
def chain (probe : String) : List String :=
  (dottedExpr (site.probeRef probe)).dottedParts?.getD []

theorem dottedParts?_probe (probe : String) :
    (dottedExpr (site.probeRef probe)).dottedParts? = some (site.chain probe) := by
  obtain ⟨first, rest, same⟩ := memberChain_eq _
  rw [chain, dottedExpr, same, dottedParts?_foldl rest rfl]
  rfl

/-- A probe is reached through its first name only. -/
theorem uses_probe {id probe : String} (apart : (site.chain probe).head? ≠ some id) :
    (dottedExpr (site.probeRef probe)).uses id = [] := by
  obtain ⟨first, rest, same⟩ := memberChain_eq _
  rw [chain, dottedExpr, same, dottedParts?_foldl rest rfl] at apart
  rw [dottedExpr, same, uses_foldl, loaded, Expr.uses_name, if_neg]
  rintro rfl
  exact apart rfl

theorem uses_start {id probe : String} (apart : (site.chain probe).head? ≠ some id) :
    (site.start probe).uses id = [] := by
  rw [start, Stmt.uses_eq]
  simp [Stmt.children, methodCall, callOf, site.uses_probe apart]

theorem uses_stop {id probe : String} (apart : (site.chain probe).head? ≠ some id) :
    (site.stop probe).uses id = [] := by
  rw [stop, Stmt.uses_eq]
  simp [Stmt.children, methodCall, callOf, site.uses_probe apart]

end Site

theorem uses_bindName (id name : String) (value : Expr) :
    (bindName name value).uses id = (if name = id then [.store] else []) ++ value.uses id := by
  rw [bindName, Stmt.uses_eq]
  simp [Stmt.children]

theorem uses_returnName (id name : String) :
    (returnName name).uses id = if name = id then [.load] else [] := by
  rw [returnName, Stmt.uses_eq]
  simp [Stmt.children, loaded]

/-! ## One statement -/

/-- A name is bound once and then read once if it is one of the given names, and it is not used
otherwise. -/
structure Whole (id : String) (names : List String) (uses : List NameUse) : Prop where
  bound : id ∈ names → uses = [.store, .load]
  absent : id ∉ names → uses = []

theorem Whole.append {id : String} {names names' : List String} {uses uses' : List NameUse}
    (first : Whole id names uses) (second : Whole id names' uses')
    (distinct : (names ++ names').Nodup) : Whole id (names ++ names') (uses ++ uses') := by
  have apart := (List.nodup_append.mp distinct).2.2
  refine ⟨fun present => ?_, fun absent => ?_⟩
  · rcases List.mem_append.mp present with here | there
    · rw [first.bound here, second.absent fun there => apart id here id there rfl]
      rfl
    · rw [first.absent fun here => apart id here id there rfl, second.bound there]
      rfl
  · rw [List.mem_append, not_or] at absent
    rw [first.absent absent.1, second.absent absent.2]
    rfl

theorem Whole.congr {id : String} {names names' : List String} {uses : List NameUse}
    (whole : Whole id names uses) (same : id ∈ names' ↔ id ∈ names) : Whole id names' uses :=
  ⟨fun present => whole.bound (same.mp present), fun absent => whole.absent (same.not.mp absent)⟩

theorem Whole.eq_or {id : String} {names : List String} {uses : List NameUse}
    (whole : Whole id names uses) : uses = [] ∨ uses = [.store, .load] := by
  by_cases present : id ∈ names
  · exact .inr (whole.bound present)
  · exact .inl (whole.absent present)

theorem Hoisting.Once.whole {id : String} {names : List String} {binding stays : List NameUse}
    (once : Once id names binding stays) : Whole id names (binding ++ stays) := by
  refine ⟨fun present => ?_, fun absent => ?_⟩
  · rcases once.bound present with ⟨rfl, rfl⟩ | ⟨rfl, rfl⟩ <;> rfl
  · obtain ⟨rfl, rfl⟩ := once.absent absent
    rfl

/-- Blocks of which at most one uses a name use it alike in every order. -/
theorem Whole.perm {id : String} {names : List String} {bodies bs : List (List Stmt)}
    (whole : Whole id names (bodies.flatMap (Stmt.blockUses id)))
    (each : ∀ b ∈ bodies, Stmt.blockUses id b = [] ∨ Stmt.blockUses id b = [.store, .load])
    (perm : bs.Perm bodies) : Whole id names (bs.flatMap (Stmt.blockUses id)) := by
  have ordered : ∀ bs : List (List Stmt),
      (∀ b ∈ bs, Stmt.blockUses id b = [] ∨ Stmt.blockUses id b = [.store, .load]) →
      (bs.flatMap (Stmt.blockUses id)).length = 2 →
        bs.flatMap (Stmt.blockUses id) = [.store, .load] := by
    intro bs
    induction bs with
    | nil => simp
    | cons b bs ih =>
      intro each two
      rw [List.flatMap_cons] at two ⊢
      rcases each b List.mem_cons_self with none | once
      · rw [none, List.nil_append] at two ⊢
        exact ih (fun c member => each c (.tail _ member)) two
      · rw [once] at two ⊢
        rw [List.length_append] at two
        rw [List.eq_nil_of_length_eq_zero (Nat.add_left_cancel two)]
        rfl
  have same := perm.flatMap_right (Stmt.blockUses id)
  refine ⟨fun present => ordered bs (fun b member => each b (perm.mem_iff.mp member)) ?_,
    fun absent => ?_⟩
  · rw [same.length_eq, whole.bound present]
    rfl
  · rw [whole.absent absent] at same
    exact same.eq_nil

namespace Site

variable (site : Site)

/-- The calls that run ahead use a name as the bindings of their temporaries do. -/
theorem uses_ahead {id : String} {ms : List Move}
    (apart : ∀ g ∈ hoistsOf ms, (site.chain g.probe).head? ≠ some id) :
    Stmt.blockUses id ((hoistsOf ms).flatMap site.ahead) = ms.flatMap (bindingUses id) := by
  induction ms with
  | nil => rfl
  | cons m ms ih =>
    have own := apart m.hoist List.mem_cons_self
    have others := ih fun g member => apart g (.tail _ member)
    simp only [Stmt.blockUses, hoistsOf, List.map_cons, List.flatMap_cons, List.flatMap_append]
      at others ⊢
    rw [others]
    simp [ahead, bindingUses, uses_bindName, site.uses_start own, site.uses_stop own]

/-- A rebuilt statement uses a name as its slot and then its blocks do. -/
theorem uses_rebuilt {id : String} {s : Stmt} {mark : Mark} {before after : Supply}
    (holds : Timing.Holds s mark before after) (unused : s.uses id = [])
    {bodies : List (List Stmt)} (fits : bodies.length = s.blocks.length) :
    ∃ (ms : List Move) (stays : List NameUse) (bs : List (List Stmt)), mark.hoists = hoistsOf ms ∧
      Once id (temporaries ms) (ms.flatMap (bindingUses id)) stays ∧ bs.Perm bodies ∧
      Stmt.uses id (match mark.slot with
        | some e => (s.withBlocks bodies).withSlot e
        | none => s.withBlocks bodies) = stays ++ bs.flatMap (Stmt.blockUses id) := by
  cases slot : s.slot? with
  | none =>
    obtain ⟨stays, hoists⟩ := holds.slotless slot
    obtain ⟨bs, perm, uses⟩ := Stmt.uses_withBlocks unused fits
    rw [stays]
    exact ⟨[], [], bs, hoists, ⟨by simp [temporaries], fun _ => ⟨rfl, rfl⟩⟩, perm, uses⟩
  | some e =>
    obtain ⟨e', ms, supply, stays, hoists, walked⟩ := holds.slotted e slot
    obtain ⟨bs, perm, uses⟩ := Stmt.uses_withSlot slot unused fits e'
    rw [stays]
    exact ⟨ms, e'.uses id, bs, hoists, walked.once id (Stmt.uses_of_slot slot unused), perm, uses⟩

/-- A statement with the blocks and the slot that it is rebuilt with. -/
def rebuilt (s : Stmt) (mark : Mark) (bodies : List (List Stmt)) : Stmt :=
  match mark.slot with
  | some e => (s.withBlocks bodies).withSlot e
  | none => s.withBlocks bodies

theorem apply_eq (s : Stmt) (mark : Mark) (bodies : List (List Stmt)) :
    site.apply (s.withBlocks bodies) mark = mark.hoists.flatMap site.ahead ++
      match mark.site with
      | some own => site.around (rebuilt s mark bodies) own
      | none => [rebuilt s mark bodies] :=
  rfl

/-- A statement whose site returns no call through a temporary stays as it is between the start and
the stop of its probe. -/
theorem around_eq {s : Stmt} {own : StatementSite} (direct : own.temporary? = none) :
    site.around s own = [site.start own.probe, s, site.stop own.probe] := by
  cases own with
  | mk kind probe => cases kind <;> first | rfl | cases direct

/-- A returned call is bound to a temporary between the start and the stop of its probe. -/
theorem around_returned {own : StatementSite} {temporary : String}
    (returns : own.temporary? = some temporary) (lines : Lines) (e : Expr) :
    site.around (.returned lines (some e)) own =
      [site.start own.probe, bindName temporary e, site.stop own.probe, returnName temporary] := by
  cases own with
  | mk kind probe => cases kind <;> cases returns; rfl

theorem rebuilt_returned {mark : Mark} {e' : Expr} (slot : mark.slot = some e') (lines : Lines)
    (e : Expr) : rebuilt (.returned lines (some e)) mark [] = .returned lines (some e') := by
  rw [rebuilt, slot]
  rfl

theorem uses_around {id : String} {own : StatementSite} (direct : own.temporary? = none)
    (apart : (site.chain own.probe).head? ≠ some id) (s : Stmt) :
    Stmt.blockUses id (site.around s own) = s.uses id := by
  rw [around_eq site direct]
  simp [Stmt.blockUses, site.uses_start apart, site.uses_stop apart]

theorem uses_around_returned {id : String} {own : StatementSite} {temporary : String}
    (returns : own.temporary? = some temporary)
    (apart : (site.chain own.probe).head? ≠ some id) (lines : Lines) (e : Expr) :
    Stmt.blockUses id (site.around (.returned lines (some e)) own) =
      (if temporary = id then [.store] else []) ++ e.uses id ++
        if temporary = id then [.load] else [] := by
  rw [around_returned site returns]
  simp [Stmt.blockUses, uses_bindName, uses_returnName, site.uses_start apart, site.uses_stop apart]

/-- What takes the place of a statement binds and reads each temporary of its mark once, and its
blocks those of theirs. -/
theorem whole_apply {id : String} {s : Stmt} {mark : Mark} {before after : Supply}
    (holds : Timing.Holds s mark before after) (unused : s.uses id = [])
    (apart : ∀ probe ∈ mark.probes, (site.chain probe).head? ≠ some id)
    {bodies : List (List Stmt)} {names : List String} (fits : bodies.length = s.blocks.length)
    (inside : Whole id names (bodies.flatMap (Stmt.blockUses id)))
    (each : ∀ b ∈ bodies, Stmt.blockUses id b = [] ∨ Stmt.blockUses id b = [.store, .load])
    (distinct : (mark.temporaries ++ names).Nodup) :
    Whole id (mark.temporaries ++ names)
      (Stmt.blockUses id (site.apply (s.withBlocks bodies) mark)) := by
  obtain ⟨ms, stays, bs, hoists, once, perm, uses⟩ := uses_rebuilt holds unused fits
  have blocks := inside.perm each perm
  have ahead : Stmt.blockUses id (mark.hoists.flatMap site.ahead) = ms.flatMap (bindingUses id) := by
    rw [hoists]
    refine site.uses_ahead fun g member => apart _ (List.mem_append_left _ ?_)
    rw [hoists]
    exact List.mem_map_of_mem member
  have moved : mark.hoists.map Hoist.temporary = temporaries ms := by
    rw [hoists, map_temporary_hoistsOf]
  rw [apply_eq, Stmt.blockUses, List.flatMap_append]
  change Stmt.uses id (rebuilt s mark bodies) = _ at uses
  change Whole id _ (Stmt.blockUses id _ ++ Stmt.blockUses id _)
  rw [ahead]
  cases own : mark.site with
  | none =>
    rw [Mark.temporaries, own, moved] at distinct ⊢
    have whole := once.whole.append blocks distinct
    simpa [Stmt.blockUses, uses] using whole
  | some site' =>
    have probe : (site.chain site'.probe).head? ≠ some id :=
      apart _ (List.mem_append_right _ (by rw [own]; exact List.mem_cons_self))
    cases direct : site'.temporary? with
    | none =>
      rw [Mark.temporaries, own, moved] at distinct ⊢
      simp only [Option.bind_some, direct, Option.toList_none, List.nil_append] at distinct ⊢
      have whole := once.whole.append blocks distinct
      rw [site.uses_around direct probe, uses]
      simpa using whole
    | some temporary =>
      obtain ⟨lines, e, rfl⟩ := holds.returns site' own (by rw [direct]; rfl)
      obtain ⟨e', -, -, slot, -, -⟩ := holds.slotted e rfl
      obtain rfl : bodies = [] := List.length_eq_zero_iff.mp fits
      obtain rfl : bs = [] := perm.eq_nil
      have same := rebuilt_returned slot lines e
      have value : e'.uses id = stays := by
        rw [same, Stmt.uses_eq] at uses
        simpa [Stmt.children] using uses
      have outside : id ∉ names := by
        intro member
        cases inside.bound member
      rw [Mark.temporaries, own, moved] at distinct ⊢
      simp only [Option.bind_some, direct, Option.toList_some, List.singleton_append] at distinct ⊢
      have own' : ([temporary] ++ temporaries ms).Nodup := (List.nodup_append.mp distinct).1
      have whole := (once.bind (List.perm_append_comm.nodup_iff.mp own')).whole
      have swapped : id ∈ temporary :: temporaries ms ++ names ↔
          id ∈ temporaries ms ++ [temporary] := by
        simp [outside, or_comm]
      rw [same, site.uses_around_returned direct probe, value]
      refine Whole.congr ?_ swapped
      simpa using whole

end Site

/-! ## A whole body -/

section Body

variable (timing : Timing) (site : Site) {id : String}

/-- Rebuilding a statement binds and reads each of its temporaries once. -/
def BindsOnce (timing : Timing) (site : Site) (id : String) (s : Stmt) : Prop :=
  s.uses id = [] → ∀ m : Mapping,
    (∀ mark ∈ (timing.markStmt s m).1.marks, ∀ probe ∈ mark.probes,
      (site.chain probe).head? ≠ some id) →
    Whole id (timing.markStmt s m).1.temporaries
      (Stmt.blockUses id (site.weave (timing.markStmt s m).1).1)

theorem whole_block {b : List Stmt} (each : ∀ s ∈ b, BindsOnce timing site id s)
    (unused : ∀ s ∈ b, s.uses id = []) (m : Mapping)
    (apart : ∀ mark ∈ Marked.marksOfBlock (timing.markBlock b m).1, ∀ probe ∈ mark.probes,
      (site.chain probe).head? ≠ some id) :
    Whole id (Marked.blockTemporaries (timing.markBlock b m).1)
      (Stmt.blockUses id (site.weaveBlock (timing.markBlock b m).1).1) := by
  induction b generalizing m with
  | nil =>
    rw [Timing.markBlock, Site.weaveBlock]
    exact ⟨by simp [Marked.blockTemporaries], fun _ => rfl⟩
  | cons s rest ih =>
    have distinct := timing.nodup_markBlock (s :: rest) m
    simp only [Timing.markBlock, Marked.marksOfBlock, List.mem_append] at apart
    simp only [Timing.markBlock, Marked.blockTemporaries, List.flatMap_cons] at distinct
    simp only [Timing.markBlock, Site.weaveBlock, Marked.blockTemporaries, List.flatMap_cons,
      Stmt.blockUses, List.flatMap_append]
    exact (each s List.mem_cons_self (unused s List.mem_cons_self) m
      fun mark member => apart mark (.inl member)).append
      (ih (fun x member => each x (.tail _ member)) (fun x member => unused x (.tail _ member)) _
        fun mark member => apart mark (.inr member)) distinct

theorem whole_blocks {bs : List (List Stmt)} (each : ∀ b ∈ bs, ∀ s ∈ b, BindsOnce timing site id s)
    (unused : ∀ b ∈ bs, ∀ s ∈ b, s.uses id = []) (m : Mapping)
    (apart : ∀ mark ∈ Marked.marksOfBlocks (timing.markBlocks bs m).1, ∀ probe ∈ mark.probes,
      (site.chain probe).head? ≠ some id) :
    let bodies := (timing.markBlocks bs m).1.map fun b => (site.weaveBlock b).1
    (∀ b ∈ bodies, Stmt.blockUses id b = [] ∨ Stmt.blockUses id b = [.store, .load]) ∧
      Whole id ((timing.markBlocks bs m).1.flatMap Marked.blockTemporaries)
        (bodies.flatMap (Stmt.blockUses id)) := by
  induction bs generalizing m with
  | nil => exact ⟨by simp [Timing.markBlocks], by simp [Timing.markBlocks], fun _ => rfl⟩
  | cons b rest ih =>
    have distinct := timing.nodup_markBlocks (b :: rest) m
    simp only [Timing.markBlocks, Marked.marksOfBlocks, List.mem_append] at apart
    simp only [Timing.markBlocks, List.flatMap_cons] at distinct
    have first := whole_block timing site (each b List.mem_cons_self) (unused b List.mem_cons_self) m
      fun mark member => apart mark (.inl member)
    obtain ⟨others, whole⟩ := ih (fun x member => each x (.tail _ member))
      (fun x member => unused x (.tail _ member)) _ fun mark member => apart mark (.inr member)
    simp only [Timing.markBlocks, List.map_cons, List.flatMap_cons]
    refine ⟨fun c member => ?_, first.append whole distinct⟩
    rcases List.mem_cons.mp member with rfl | member
    · exact first.eq_or
    · exact others c member

theorem bindsOnce_stmt (s : Stmt) : BindsOnce timing site id s := by
  induction s using Stmt.block_induction with
  | step s blocks =>
    intro unused m apart
    have distinct := timing.nodup_markStmt s m
    cases inside : s.opensScope with
    | true =>
      rw [timing.markStmt_of_opensScope inside]
      rw [Site.weave_mk, List.map_nil, Stmt.withBlocks_nil (Stmt.blocks_of_opensScope inside)]
      refine ⟨by simp [Marked.temporaries_mk, Mark.temporaries], fun _ => ?_⟩
      simp [Site.apply, Stmt.blockUses, unused]
    | false =>
      have below : ∀ b ∈ s.blocks, ∀ x ∈ b, x.uses id = [] :=
        fun b block x member => Stmt.uses_of_block unused block member
      rw [timing.markStmt_eq inside] at apart distinct ⊢
      simp only [Marked.marks, List.mem_cons, forall_eq_or_imp, Marked.temporaries_mk]
        at apart distinct ⊢
      obtain ⟨each, whole⟩ := whole_blocks timing site blocks below _ apart.2
      rw [Site.weave_mk]
      exact site.whole_apply (timing.mark_holds s m) unused apart.1
        (by simp [timing.length_markBlocks]) whole each distinct

/-- In a rebuilt block every temporary is bound once and then read once, and no name that the block
does not use is used otherwise, unless it leads to a probe. -/
theorem whole_weaveBlock {b : List Stmt} (unused : ∀ s ∈ b, s.uses id = []) (m : Mapping)
    (apart : ∀ mark ∈ Marked.marksOfBlock (timing.markBlock b m).1, ∀ probe ∈ mark.probes,
      (site.chain probe).head? ≠ some id) :
    Whole id (Marked.blockTemporaries (timing.markBlock b m).1)
      (Stmt.blockUses id (site.weaveBlock (timing.markBlock b m).1).1) :=
  whole_block timing site (fun s _ => bindsOnce_stmt timing site s) unused m apart

end Body

end ProbeWeave.Weaving
