import ProbeWeave.Proofs.Weaving.BoundOnce

/-! # Erasing the probes from a rebuilt body

`Eraser.eraseBlock` reads a block and knows nothing but the names that lead to probes and the names of
temporaries. It drops the statements that start and stop probes, drops the bindings of temporaries, and
puts what was bound where a temporary is read in a later slot of the same block. Erasing what a body
was rebuilt to gives the body, but for the lines of its `return`s.
-/

namespace ProbeWeave.Syntax

namespace Stmt

/-- A statement with names in its slot replaced by the expressions they stand for. -/
def inlineSlot (env : Bindings) (s : Stmt) : Stmt :=
  match s.slot? with
  | some e => s.withSlot (e.inline env)
  | none => s

/-- A `return` that stands nowhere, and any other statement as it is. -/
def returnNowhere : Stmt → Stmt
  | returned _ value => returned .nowhere value
  | s => s

/-- A statement whose `return`s stand nowhere. -/
def unplaced (s : Stmt) : Stmt :=
  s.returnNowhere.withBlocks (s.blocks.attach.map fun ⟨b, _⟩ => b.attach.map fun ⟨x, _⟩ => unplaced x)
termination_by sizeOf s
decreasing_by exact Nat.lt_trans (List.sizeOf_lt_of_mem ‹_›) (sizeOf_lt_of_mem_blocks ‹_›)

theorem unplaced_eq (s : Stmt) :
    s.unplaced = s.returnNowhere.withBlocks (s.blocks.map fun b => b.map unplaced) := by
  rw [unplaced]
  simp

theorem returnNowhere_withBlocks (s : Stmt) (bodies : List (List Stmt)) :
    (s.withBlocks bodies).returnNowhere = s.returnNowhere.withBlocks bodies := by
  fun_cases withBlocks s bodies with
  | case7 => cases s <;> simp_all [withBlocks, returnNowhere]
  | _ => rfl

theorem blocks_returnNowhere (s : Stmt) : s.returnNowhere.blocks = s.blocks := by
  cases s <;> rfl

/-- Only the blocks up to the places of their `return`s matter. -/
theorem unplaced_withBlocks {s : Stmt} {bodies : List (List Stmt)}
    (same : bodies.map (List.map unplaced) = s.blocks.map (List.map unplaced)) :
    (s.withBlocks bodies).unplaced = s.unplaced := by
  have fits : bodies.length = s.blocks.length := by
    simpa using congrArg List.length same
  rw [unplaced_eq, unplaced_eq s, returnNowhere_withBlocks, blocks_withBlocks fits, same,
    withBlocks_withBlocks (by rw [blocks_returnNowhere]; exact fits)
      (by rw [blocks_returnNowhere, List.length_map])]

end Stmt

namespace Node

/-- The names of a chain of members, if a node is one. -/
def chain? : Node → Option (List String)
  | expr e => e.dottedParts?
  | _ => none

/-- The chains of members in a tree. -/
def chains (n : Node) : List (List String) :=
  n.preorder.filterMap chain?

end Node

end ProbeWeave.Syntax

namespace ProbeWeave.Weaving

open Syntax Supply Hoisting

/-- What erasing knows: the chains of names that lead to probes, and the names of temporaries. -/
structure Eraser where
  references : List (List String)
  temporaries : List String

namespace Eraser

variable (E : Eraser)

/-- Whether a statement starts or stops a probe. -/
def isProbeStatement : Stmt → Bool
  | .expression _ e => isProbeCall E.references e
  | _ => false

/-- The temporary that a statement binds, with what it is bound to. -/
def binding? : Stmt → Option (String × Expr)
  | .assign _ [.name t .store] value => if t ∈ E.temporaries then some (t, value) else none
  | _ => none

/-- Erases the probes from a block, when the temporaries bound before stand for expressions. -/
def eraseBlock (env : Bindings) (b : List Stmt) : List Stmt :=
  match b with
  | [] => []
  | s :: rest =>
    if E.isProbeStatement s then eraseBlock env rest
    else
      match E.binding? s with
      | some (t, value) => eraseBlock ((t, value.inline env) :: env) rest
      | none =>
        (s.inlineSlot env).withBlocks (s.blocks.attach.map fun ⟨b, _⟩ => eraseBlock [] b) ::
          eraseBlock env rest
termination_by sizeOf b
decreasing_by
  · simp only [List.cons.sizeOf_spec]; omega
  · simp only [List.cons.sizeOf_spec]; omega
  · have := Stmt.sizeOf_lt_of_mem_blocks ‹_›
    simp only [List.cons.sizeOf_spec]; omega
  · simp only [List.cons.sizeOf_spec]; omega

theorem eraseBlock_nil (env : Bindings) : E.eraseBlock env [] = [] := by
  rw [eraseBlock]

variable {E}

theorem eraseBlock_probe {s : Stmt} (serves : E.isProbeStatement s = true) (env : Bindings)
    (rest : List Stmt) : E.eraseBlock env (s :: rest) = E.eraseBlock env rest := by
  rw [eraseBlock, if_pos serves]

theorem eraseBlock_binding {s : Stmt} {t : String} {value : Expr}
    (useful : E.isProbeStatement s = false) (binds : E.binding? s = some (t, value)) (env : Bindings)
    (rest : List Stmt) :
    E.eraseBlock env (s :: rest) = E.eraseBlock ((t, value.inline env) :: env) rest := by
  rw [eraseBlock, if_neg (by simp [useful]), binds]

theorem eraseBlock_other {s : Stmt} (useful : E.isProbeStatement s = false)
    (keeps : E.binding? s = none) (env : Bindings) (rest : List Stmt) :
    E.eraseBlock env (s :: rest) =
      (s.inlineSlot env).withBlocks (s.blocks.map (E.eraseBlock [])) :: E.eraseBlock env rest := by
  rw [eraseBlock, if_neg (by simp [useful]), keeps]
  simp

/-- A tree mentions a probe: a chain of members in it leads to one. -/
def Mentions (E : Eraser) (n : Node) : Prop :=
  ∃ parts ∈ n.chains, parts ∈ E.references

instance (E : Eraser) (n : Node) : Decidable (E.Mentions n) :=
  inferInstanceAs (Decidable (∃ parts ∈ n.chains, parts ∈ E.references))

theorem mentions_of_child {n c : Node} (child : c ∈ n.children) (mentions : E.Mentions c) :
    E.Mentions n := by
  obtain ⟨parts, member, known⟩ := mentions
  obtain ⟨d, below, chain⟩ := List.mem_filterMap.mp member
  exact ⟨parts, List.mem_filterMap.mpr ⟨d, Node.mem_preorder_of_child child below, chain⟩, known⟩

theorem mentions_of_block {s x : Stmt} {b : List Stmt} (block : b ∈ s.blocks) (member : x ∈ b)
    (mentions : E.Mentions (.stmt x)) : E.Mentions (.stmt s) := by
  rcases Stmt.block_below block member with child | ⟨n, child, grandchild⟩
  · exact mentions_of_child child mentions
  · exact mentions_of_child child (mentions_of_child grandchild mentions)

theorem mentions_of_probeCall {e : Expr} (serves : isProbeCall E.references e = true) :
    E.Mentions (.expr e) := by
  unfold isProbeCall at serves
  split at serves
  · rename_i start target method
    simp only [Bool.and_eq_true, Option.any_eq_true, List.contains_iff_mem] at serves
    obtain ⟨-, parts, chain, known⟩ := serves
    refine mentions_of_child (c := .expr (.member target method)) List.mem_cons_self
      (mentions_of_child (c := .expr target) List.mem_cons_self ?_)
    exact ⟨parts, List.mem_filterMap.mpr ⟨.expr target, Node.mem_preorder_self _, chain⟩, known⟩
  · cases serves

/-- What was bound before stands for temporaries only. -/
def Clean (E : Eraser) (env : Bindings) : Prop :=
  ∀ id, id ∉ E.temporaries → env.lookup id = none

/-- A statement that uses no temporary and mentions no probe. -/
structure Untouched (E : Eraser) (s : Stmt) : Prop where
  fresh : ∀ t ∈ E.temporaries, s.uses t = []
  silent : ¬ E.Mentions (.stmt s)

instance (E : Eraser) (s : Stmt) : Decidable (E.Untouched s) :=
  decidable_of_iff ((∀ t ∈ E.temporaries, s.uses t = []) ∧ ¬ E.Mentions (.stmt s))
    ⟨fun ⟨fresh, silent⟩ => ⟨fresh, silent⟩, fun untouched => ⟨untouched.fresh, untouched.silent⟩⟩

theorem Untouched.block {s x : Stmt} {b : List Stmt} (untouched : E.Untouched s)
    (block : b ∈ s.blocks) (member : x ∈ b) : E.Untouched x :=
  ⟨fun t temporary => Stmt.uses_of_block (untouched.fresh t temporary) block member,
    fun mentions => untouched.silent (mentions_of_block block member mentions)⟩

theorem Clean.leaves {env : Bindings} (clean : E.Clean env) {s : Stmt} (untouched : E.Untouched s)
    {e : Expr} (slot : s.slot? = some e) : Leaves env e :=
  fun id used => clean id fun temporary =>
    used (Stmt.uses_of_slot slot (untouched.fresh id temporary))

theorem Clean.bind {env : Bindings} (clean : E.Clean env) {t : String} (temporary : t ∈ E.temporaries)
    (e : Expr) : E.Clean ((t, e) :: env) := by
  intro id other
  have differs : (id == t) = false := by
    rw [beq_eq_false_iff_ne]
    rintro rfl
    exact other temporary
  rw [List.lookup_cons, differs]
  exact clean id other

/-! ## The statements around a rebuilt one -/

variable {site : Site}

theorem isProbeStatement_start {probe : String} (known : site.chain probe ∈ E.references) :
    E.isProbeStatement (site.start probe) = true := by
  simp [isProbeStatement, Site.start, methodCall, callOf, isProbeCall, site.dottedParts?_probe, known]

theorem isProbeStatement_stop {probe : String} (known : site.chain probe ∈ E.references) :
    E.isProbeStatement (site.stop probe) = true := by
  simp [isProbeStatement, Site.stop, methodCall, callOf, isProbeCall, site.dottedParts?_probe, known]

theorem eraseBlock_bindName {t : String} (temporary : t ∈ E.temporaries) (value : Expr)
    (env : Bindings) (rest : List Stmt) :
    E.eraseBlock env (bindName t value :: rest) =
      E.eraseBlock ((t, value.inline env) :: env) rest :=
  eraseBlock_binding rfl (by simp [binding?, bindName, temporary]) env rest

/-- A temporary that is returned is the expression that it was bound to. -/
theorem eraseBlock_returnName (t : String) (e : Expr) (env : Bindings) (rest : List Stmt) :
    E.eraseBlock ((t, e) :: env) (returnName t :: rest) =
      .returned .nowhere (some e) :: E.eraseBlock ((t, e) :: env) rest := by
  rw [eraseBlock_other rfl rfl]
  simp [returnName, loaded, Stmt.inlineSlot, Stmt.slot?, Stmt.withSlot, Stmt.blocks, Stmt.withBlocks,
    Expr.inline_name]

/-- Erasing the calls that run ahead of a statement leaves their temporaries to stand for them. -/
theorem eraseBlock_ahead {e : Expr} {done gs : List Hoist} {env : Bindings} (clean : E.Clean env)
    (leaves : ∀ env, E.Clean env → Leaves env e) (binds : Binds env done)
    (restores : Restores e done gs) (distinct : ((done ++ gs).map Hoist.temporary).Nodup)
    (temporaries : ∀ g ∈ gs, g.temporary ∈ E.temporaries)
    (probes : ∀ g ∈ gs, site.chain g.probe ∈ E.references) :
    ∃ env', E.Clean env' ∧ Binds env' (done ++ gs) ∧ ∀ rest,
      E.eraseBlock env (gs.flatMap site.ahead ++ rest) = E.eraseBlock env' rest := by
  induction gs generalizing done env with
  | nil => exact ⟨env, clean, by simpa using binds, fun _ => rfl⟩
  | cons g gs ih =>
    have temporary := temporaries g List.mem_cons_self
    have known := probes g List.mem_cons_self
    have bound : g.bound.inline env = g.call := restores.1 env (leaves env clean) binds
    have apart : ∀ d ∈ done, d.temporary ≠ g.temporary := by
      intro d early same
      rw [List.map_append, List.nodup_append] at distinct
      exact distinct.2.2 _ (List.mem_map_of_mem early) _ (List.mem_map_of_mem List.mem_cons_self) same
    have binds' : Binds ((g.temporary, g.call) :: env) (done ++ [g]) := by
      intro d member
      rcases List.mem_append.mp member with early | last
      · have differs : (d.temporary == g.temporary) = false := beq_eq_false_iff_ne.mpr (apart d early)
        rw [List.lookup_cons, differs]
        exact binds d early
      · rw [List.mem_singleton.mp last, List.lookup_cons_self]
    obtain ⟨env', clean', all, erased⟩ := ih (clean.bind temporary g.call) binds' restores.2
      (by simpa using distinct) (fun k member => temporaries k (.tail _ member))
      (fun k member => probes k (.tail _ member))
    refine ⟨env', clean', by simpa using all, fun rest => ?_⟩
    rw [List.flatMap_cons, List.append_assoc, Site.ahead]
    simp only [List.cons_append, List.nil_append]
    rw [eraseBlock_probe (isProbeStatement_start known), eraseBlock_bindName temporary, bound,
      eraseBlock_probe (isProbeStatement_stop known)]
    exact erased rest

/-! ## A rebuilt statement -/

theorem withBlocks_eq_expression {s : Stmt} {bodies : List (List Stmt)} {lines : Lines} {e : Expr}
    (same : s.withBlocks bodies = .expression lines e) : s = .expression lines e := by
  fun_cases Stmt.withBlocks s bodies <;> simp_all [Stmt.withBlocks]

theorem withSlot_eq_expression {s : Stmt} {lines : Lines} {e e' : Expr}
    (same : s.withSlot e' = .expression lines e) : e = e' ∧ ∃ e₁, s = .expression lines e₁ := by
  fun_cases Stmt.withSlot s e' <;> simp_all [Stmt.withSlot]

theorem withBlocks_eq_assign {s : Stmt} {bodies : List (List Stmt)} {lines : Lines}
    {targets : List Expr} {value : Expr} (same : s.withBlocks bodies = .assign lines targets value) :
    s = .assign lines targets value := by
  fun_cases Stmt.withBlocks s bodies <;> simp_all [Stmt.withBlocks]

theorem withSlot_eq_assign {s : Stmt} {lines : Lines} {targets : List Expr} {value e' : Expr}
    (same : s.withSlot e' = .assign lines targets value) :
    ∃ value, s = .assign lines targets value := by
  fun_cases Stmt.withSlot s e' <;> simp_all [Stmt.withSlot]

/-- No temporary leads to a probe. -/
def Apart (E : Eraser) : Prop :=
  ∀ t ∈ E.temporaries, ∀ reference ∈ E.references, reference.head? ≠ some t

/-- A rebuilt statement does not look like one that starts or stops a probe. -/
theorem isProbeStatement_rebuilt {s : Stmt} {mark : Mark} {before after : Supply}
    (holds : Timing.Holds s mark before after) (silent : ¬ E.Mentions (.stmt s)) (apart : E.Apart)
    (known : ∀ t ∈ mark.temporaries, t ∈ E.temporaries) (bodies : List (List Stmt)) :
    E.isProbeStatement (Site.rebuilt s mark bodies) = false := by
  by_contra serves
  rw [Bool.not_eq_false] at serves
  unfold isProbeStatement at serves
  split at serves
  · rename_i lines e' same
    cases slot : mark.slot with
    | none =>
      simp only [Site.rebuilt, slot] at same
      obtain rfl := withBlocks_eq_expression same
      obtain ⟨_, _, _, stays, -, -⟩ := holds.slotted e' rfl
      rw [slot] at stays
      cases stays
    | some stays =>
      simp only [Site.rebuilt, slot] at same
      obtain ⟨rfl, e, same⟩ := withSlot_eq_expression same
      obtain rfl := withBlocks_eq_expression same
      obtain ⟨_, ms, _, stays, hoists, walked⟩ := holds.slotted e rfl
      rw [slot] at stays
      cases stays
      have own : ∀ t ∈ Hoisting.temporaries ms, t ∈ E.temporaries := by
        intro t member
        refine known t (List.mem_append_right _ ?_)
        rwa [hoists, Hoisting.map_temporary_hoistsOf]
      have original := walked.serves E.references (fun t member => apart t (own t member)) serves
      exact silent (mentions_of_child (c := .expr e) List.mem_cons_self
        (mentions_of_probeCall original))
  · cases serves

/-- A rebuilt statement binds no temporary. -/
theorem binding?_rebuilt {s : Stmt} (mark : Mark) (untouched : E.Untouched s)
    (bodies : List (List Stmt)) : E.binding? (Site.rebuilt s mark bodies) = none := by
  unfold binding?
  split
  · rename_i lines t value same
    rw [ite_eq_right_iff]
    intro temporary
    exfalso
    have original : ∃ value, s = .assign lines [.name t .store] value := by
      unfold Site.rebuilt at same
      split at same
      · obtain ⟨value, same⟩ := withSlot_eq_assign same
        exact ⟨value, withBlocks_eq_assign same⟩
      · exact ⟨value, withBlocks_eq_assign same⟩
    obtain ⟨value, rfl⟩ := original
    have unused := untouched.fresh t temporary
    rw [Stmt.uses_eq] at unused
    simp [Stmt.children] at unused
  · rfl

/-! ## Marked statements -/

/-- The temporaries and probes of marked statements are those that erasing knows. -/
structure Knows (E : Eraser) (site : Site) (marks : List Mark) : Prop where
  temporaries : ∀ t ∈ marks.flatMap Mark.temporaries, t ∈ E.temporaries
  probes : ∀ mark ∈ marks, ∀ probe ∈ mark.probes, site.chain probe ∈ E.references

theorem Knows.append {marks more : List Mark} (knows : E.Knows site (marks ++ more)) :
    E.Knows site marks ∧ E.Knows site more := by
  refine ⟨⟨fun t member => knows.temporaries t ?_, fun mark member => knows.probes mark ?_⟩,
    ⟨fun t member => knows.temporaries t ?_, fun mark member => knows.probes mark ?_⟩⟩
  · rw [List.flatMap_append]
    exact List.mem_append_left _ member
  · exact List.mem_append_left _ member
  · rw [List.flatMap_append]
    exact List.mem_append_right _ member
  · exact List.mem_append_right _ member

/-- What erasing has to know about marked statements. -/
def ofMarked (site : Site) (b : List Marked) : Eraser :=
  ⟨(Marked.marksOfBlock b).flatMap fun mark => mark.probes.map site.chain,
    Marked.blockTemporaries b⟩

theorem knows_ofMarked (site : Site) (b : List Marked) :
    (ofMarked site b).Knows site (Marked.marksOfBlock b) where
  temporaries := fun t member => by rwa [Marked.marksOfBlock_temporaries] at member
  probes := fun mark marked probe serves =>
    List.mem_flatMap.mpr ⟨mark, marked, List.mem_map_of_mem serves⟩

theorem apart_iff (site : Site) (b : List Marked) :
    (ofMarked site b).Apart ↔ ∀ t ∈ Marked.blockTemporaries b,
      ∀ mark ∈ Marked.marksOfBlock b, ∀ probe ∈ mark.probes, (site.chain probe).head? ≠ some t := by
  simp only [Apart, ofMarked, List.mem_flatMap, List.mem_map]
  constructor
  · intro apart t temporary mark marked probe serves
    exact apart t temporary _ ⟨mark, marked, probe, serves, rfl⟩
  · rintro apart t temporary _ ⟨mark, marked, probe, serves, rfl⟩
    exact apart t temporary mark marked probe serves

end Eraser

/-! ## A routine in which every call is timed -/

/-- Every call is timed, by one probe. -/
def timesAll : Timing :=
  ⟨⟨"m", 0, none, "run", 1⟩, fun _ => some "probe1_f"⟩

/-- Nothing is mapped yet, and temporaries have a given stem. -/
def unmapped (stem : String) : Mapping :=
  ⟨.fresh stem ["f"], ⟨⟨"m", none⟩, [], []⟩⟩

/-- The module that declares the probes, itself or in a class. -/
def declaredIn (owner : Option String) : Site :=
  ⟨⟨"m", owner⟩, "m", homeAlias⟩

end ProbeWeave.Weaving
