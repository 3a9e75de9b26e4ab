import Mathlib
import ProbeWeave.Proofs.Weaving.Erasure
import ProbeWeave.Proofs.Weaving.ProbeEvent

/-! # Balanced starts and stops

The start and the stop of a probe stand next to each other, around a call or around a loop. A call
lets control through, but a loop may be left by a `return` inside it, or by a `break` or a `continue`
in its `else` that belongs to a loop around it, and then its probe is not stopped. Nothing else keeps
starts and stops from being balanced.
-/

namespace ProbeWeave.Weaving

open Syntax Supply Hoisting Paths ProbeEvent

/-! ## Timed loops that are left early -/

/-- The paths through what a probe times; it counts if they leave for elsewhere. -/
def leftEarly (probe : String) (A : Paths String) : Paths String :=
  fun left x => ∃ inner, A inner x ∧ left = if x = .fell then inner else probe :: inner

/-- What goes on is not left early. -/
theorem leftEarly_quiet (probe : String) : leftEarly probe (.quiet .fell) = .quiet .fell := by
  funext left x
  by_cases fell : x = .fell <;> simp [leftEarly, Paths.quiet, fell]

/-- The paths through a marked statement, on which leaving a timed loop early counts. -/
def Mark.abandon (mark : Mark) (A : Paths String) : Paths String :=
  match mark.site with
  | some ⟨.loop, probe⟩ => leftEarly probe A
  | _ => A

theorem Mark.abandon_eq {mark : Mark} {own : StatementSite} (marked : mark.site = some own)
    (A : Paths String) :
    mark.abandon A = if own.kind = .loop then leftEarly own.probe A else A := by
  obtain ⟨kind, probe⟩ := own
  cases kind <;> simp [Mark.abandon, marked]

namespace Marked

mutual

/-- The paths through a marked statement with the probes of the timed loops that they leave early. -/
def abandoned : Marked → Paths String
  | mk s mark blocks => mark.abandon (s.control (abandonedEach blocks))

/-- The paths through a marked block. -/
def blockAbandoned : List Marked → Paths String
  | [] => .quiet .fell
  | m :: rest => .seq (abandoned m) (blockAbandoned rest)

/-- The paths through each of several marked blocks. -/
def abandonedEach : List (List Marked) → List (Paths String)
  | [] => []
  | b :: rest => blockAbandoned b :: abandonedEach rest

end

end Marked

/-- The value of a statement that is timed as a whole is evaluated, and control goes on. -/
theorem Timing.control_of_site {ε : Type} (timing : Timing) {s : Stmt} {m : Mapping}
    {own : StatementSite} (marked : (timing.mark s m).1.site = some own)
    (direct : own.temporary? = none) (notLoop : own.kind ≠ .loop) (blocks : List (Paths ε)) :
    s.control blocks = .quiet .fell := by
  obtain ⟨loop, isLoop, site⟩ := timing.mark_site s m
  rw [site, Option.or_eq_some_iff] at marked
  rcases marked with call | ⟨-, marked⟩
  · unfold callSite? at call
    split at call
    · cases call
    · split at call
      · rfl
      · rfl
      · rfl
      · cases call
        cases direct
      · cases call
  · exact absurd (isLoop own marked) notLoop

/-! ## One statement -/

variable {E : Eraser} {site : Site}

/-- The starts and stops on the paths through a block leave running what its marks tell. -/
def Tells (E : Eraser) (site : Site) (b : List Stmt) (A : Paths String) : Prop :=
  Alike (LeaveRunning site) (Stmt.blockPaths (probeEvent? E.references) b) A

theorem paths_start {probe : String} (known : site.chain probe ∈ E.references) :
    (site.start probe).paths (probeEvent? E.references) = .event (.start (site.chain probe)) := by
  rw [Stmt.paths, probeEvent?_start known]

theorem paths_stop {probe : String} (known : site.chain probe ∈ E.references) :
    (site.stop probe).paths (probeEvent? E.references) = .event (.stop (site.chain probe)) := by
  rw [Stmt.paths, probeEvent?_stop known]

/-- A probe around a statement is left running exactly when the statement is left early. -/
theorem tells_around {probe : String} (known : site.chain probe ∈ E.references) {s : Stmt}
    {A : Paths String} (inner : Tells E site [s] A) :
    Tells E site [site.start probe, s, site.stop probe] (leftEarly probe A) := by
  have around : ∀ es x, Stmt.blockPaths (probeEvent? E.references)
      [site.start probe, s, site.stop probe] es x ↔
        ∃ as, Stmt.blockPaths (probeEvent? E.references) [s] as x ∧
          es = .start (site.chain probe) ::
            if x = .fell then as ++ [.stop (site.chain probe)] else as := by
    intro es x
    rw [Stmt.blockPaths_cons, paths_start known, event_seq, ← List.singleton_append,
      Stmt.blockPaths_append, Stmt.blockPaths_singleton _ (site.stop probe), paths_stop known]
    simp only [seq_event]
    constructor
    · rintro ⟨_, ⟨as, run, rfl⟩, rfl⟩
      exact ⟨as, run, rfl⟩
    · rintro ⟨as, run, rfl⟩
      exact ⟨_, ⟨as, run, rfl⟩, rfl⟩
  have leave : ∀ {as : List ProbeEvent} {left : List String} (x : Exit),
      LeaveRunning site as left → LeaveRunning site
        (.start (site.chain probe) :: if x = .fell then as ++ [.stop (site.chain probe)] else as)
        (if x = .fell then left else probe :: left) := by
    intro as left x leaves
    by_cases fell : x = .fell
    · simpa only [if_pos fell] using leaves.stopped probe
    · simpa only [if_neg fell] using leaves.started probe
  constructor
  · intro es x passed
    obtain ⟨as, run, rfl⟩ := (around es x).mp passed
    obtain ⟨left, marked, leaves⟩ := inner.forth as x run
    exact ⟨_, ⟨left, marked, rfl⟩, leave x leaves⟩
  · rintro _ x ⟨left, marked, rfl⟩
    obtain ⟨as, run, leaves⟩ := inner.back left x marked
    exact ⟨_, (around _ x).mpr ⟨as, run, rfl⟩, leave x leaves⟩

theorem Tells.append {b rest : List Stmt} {A B : Paths String} (first : Tells E site b A)
    (second : Tells E site rest B) : Tells E site (b ++ rest) (.seq A B) := by
  rw [Tells, Stmt.blockPaths_append]
  exact .seq (additive_leaveRunning site) first second

/-- A statement that is no event is passed as its blocks are. -/
theorem tells_useful {s : Stmt} (useful : E.isProbeStatement s = false) {As : List (Paths String)}
    (each : List.Forall₂ (Tells E site) s.blocks As) : Tells E site [s] (s.control As) := by
  have noEvent : probeEvent? E.references s = none :=
    probeEvent?_eq_none fun lines e same => by rw [same] at useful; exact useful
  rw [Tells, Stmt.blockPaths_singleton, Stmt.paths, noEvent]
  exact Stmt.alike_control (additive_leaveRunning site) s (List.forall₂_map_left_iff.mpr each)

theorem tells_bindName (t : String) (value : Expr) :
    Tells E site [bindName t value] (.quiet .fell) :=
  tells_useful rfl .nil

/-- Calls that run ahead of a statement stop their probes. -/
theorem tells_ahead {gs : List Hoist} (known : ∀ g ∈ gs, site.chain g.probe ∈ E.references) :
    Tells E site (gs.flatMap site.ahead) (.quiet .fell) := by
  induction gs with
  | nil =>
    rw [List.flatMap_nil, Tells, Stmt.blockPaths_nil]
    exact .quiet (additive_leaveRunning site) .fell
  | cons g gs ih =>
    have first := tells_around (known g List.mem_cons_self) (tells_bindName g.temporary g.bound)
    have others := ih fun k member => known k (.tail _ member)
    rw [leftEarly_quiet] at first
    rw [List.flatMap_cons, ← quiet_seq (.quiet .fell)]
    exact first.append others

theorem control_rebuilt {ε : Type} (s : Stmt) (mark : Mark) (bodies : List (List Stmt)) :
    (Site.rebuilt s mark bodies).control = s.control (ε := ε) := by
  unfold Site.rebuilt
  split
  · rw [Stmt.control_withSlot, Stmt.control_withBlocks]
  · rw [Stmt.control_withBlocks]

theorem blocks_rebuilt {s : Stmt} (mark : Mark) {bodies : List (List Stmt)}
    (fits : bodies.length = s.blocks.length) : (Site.rebuilt s mark bodies).blocks = bodies := by
  unfold Site.rebuilt
  split
  · rw [Stmt.blocks_withSlot, Stmt.blocks_withBlocks fits]
  · rw [Stmt.blocks_withBlocks fits]

/-- What takes the place of a statement leaves running the probe of its loop when the loop is left
early, besides what its blocks leave running. -/
theorem tells_apply {s : Stmt} {mark : Mark} {before after : Supply}
    (holds : Timing.Holds s mark before after) (silent : ¬ E.Mentions (.stmt s)) (apart : E.Apart)
    (known : ∀ t ∈ mark.temporaries, t ∈ E.temporaries)
    (probes : ∀ probe ∈ mark.probes, site.chain probe ∈ E.references)
    {bodies : List (List Stmt)} {As : List (Paths String)} (fits : bodies.length = s.blocks.length)
    (each : List.Forall₂ (Tells E site) bodies As)
    (passed : ∀ own, mark.site = some own → own.temporary? = none → own.kind ≠ .loop →
      s.control As = .quiet .fell) :
    Tells E site (site.apply (s.withBlocks bodies) mark) (mark.abandon (s.control As)) := by
  have ahead : Tells E site (mark.hoists.flatMap site.ahead) (.quiet .fell) :=
    tells_ahead fun g member => probes _ (List.mem_append_left _ (List.mem_map_of_mem member))
  have rebuilt : Tells E site [Site.rebuilt s mark bodies] (s.control As) := by
    rw [← control_rebuilt s mark bodies]
    exact tells_useful (Eraser.isProbeStatement_rebuilt holds silent apart known bodies)
      ((blocks_rebuilt mark fits).symm ▸ each)
  rw [Site.apply_eq, ← quiet_seq (mark.abandon _)]
  refine ahead.append ?_
  cases own : mark.site with
  | none => simpa only [Mark.abandon, own] using rebuilt
  | some own' =>
    have probe : site.chain own'.probe ∈ E.references :=
      probes _ (List.mem_append_right _ (by rw [own]; exact List.mem_cons_self))
    cases direct : own'.temporary? with
    | none =>
      have around := tells_around probe rebuilt
      simp only [Site.around_eq site direct]
      by_cases loop : own'.kind = .loop
      · rwa [Mark.abandon_eq own, if_pos loop]
      · rw [passed own' own direct loop, leftEarly_quiet] at around
        rwa [Mark.abandon_eq own, if_neg loop, passed own' own direct loop]
    | some temporary =>
      obtain ⟨lines, e, rfl⟩ := holds.returns own' own (by rw [direct]; rfl)
      obtain ⟨e', -, -, slot, -, -⟩ := holds.slotted e rfl
      obtain rfl : bodies = [] := List.length_eq_zero_iff.mp fits
      have bound := tells_around probe (tells_bindName temporary e')
      have returns : Tells E site [returnName temporary] (.quiet .returned) := tells_useful rfl .nil
      have whole := bound.append returns
      rw [leftEarly_quiet, quiet_seq] at whole
      have notLoop : own'.kind ≠ .loop := by
        intro loop
        simp [StatementSite.temporary?, loop] at direct
      simp only [Site.rebuilt_returned slot, Site.around_returned site direct, Mark.abandon_eq own, if_neg notLoop]
      exact whole

/-! ## A whole body -/

section Body

variable (timing : Timing)

/-- What a statement was rebuilt to leaves running what its marks tell. -/
def TellsMarked (E : Eraser) (site : Site) (timing : Timing) (s : Stmt) : Prop :=
  ¬ E.Mentions (.stmt s) → ∀ m : Mapping, E.Knows site (timing.markStmt s m).1.marks →
    Tells E site (site.weave (timing.markStmt s m).1).1 (timing.markStmt s m).1.abandoned

theorem tells_block {b : List Stmt} (each : ∀ s ∈ b, TellsMarked E site timing s)
    (silent : ∀ s ∈ b, ¬ E.Mentions (.stmt s)) (m : Mapping)
    (knows : E.Knows site (Marked.marksOfBlock (timing.markBlock b m).1)) :
    Tells E site (site.weaveBlock (timing.markBlock b m).1).1
      (Marked.blockAbandoned (timing.markBlock b m).1) := by
  induction b generalizing m with
  | nil =>
    rw [Timing.markBlock, Site.weaveBlock, Marked.blockAbandoned, Tells, Stmt.blockPaths_nil]
    exact .quiet (additive_leaveRunning site) .fell
  | cons s rest ih =>
    simp only [Timing.markBlock, Marked.marksOfBlock] at knows
    obtain ⟨first, others⟩ := knows.append
    simp only [Timing.markBlock, Site.weaveBlock, Marked.blockAbandoned]
    exact (each s List.mem_cons_self (silent s List.mem_cons_self) m first).append
      (ih (fun x member => each x (.tail _ member)) (fun x member => silent x (.tail _ member)) _
        others)

theorem tells_blocks {bs : List (List Stmt)} (each : ∀ b ∈ bs, ∀ s ∈ b, TellsMarked E site timing s)
    (silent : ∀ b ∈ bs, ∀ s ∈ b, ¬ E.Mentions (.stmt s)) (m : Mapping)
    (knows : E.Knows site (Marked.marksOfBlocks (timing.markBlocks bs m).1)) :
    List.Forall₂ (Tells E site) ((timing.markBlocks bs m).1.map fun b => (site.weaveBlock b).1)
      (Marked.abandonedEach (timing.markBlocks bs m).1) := by
  induction bs generalizing m with
  | nil =>
    rw [Timing.markBlocks, Marked.abandonedEach]
    exact .nil
  | cons b rest ih =>
    simp only [Timing.markBlocks, Marked.marksOfBlocks] at knows
    obtain ⟨first, others⟩ := knows.append
    simp only [Timing.markBlocks, List.map_cons, Marked.abandonedEach]
    exact .cons (tells_block timing (each b List.mem_cons_self) (silent b List.mem_cons_self) m first)
      (ih (fun c member => each c (.tail _ member)) (fun c member => silent c (.tail _ member)) _
        others)

theorem tellsMarked_stmt (apart : E.Apart) (s : Stmt) : TellsMarked E site timing s := by
  induction s using Stmt.block_induction with
  | step s blocks =>
    intro silent m knows
    cases inside : s.opensScope with
    | true =>
      have none := Stmt.blocks_of_opensScope inside
      rw [timing.markStmt_of_opensScope inside, Site.weave_mk, List.map_nil, Marked.abandoned,
        Marked.abandonedEach]
      exact tells_apply (.of_opensScope inside m.supply) silent apart (by simp [Mark.temporaries])
        (by simp [Mark.probes]) (by simp [none]) .nil nofun
    | false =>
      have below : ∀ b ∈ s.blocks, ∀ x ∈ b, ¬ E.Mentions (.stmt x) :=
        fun b block x member mentions => silent (Eraser.mentions_of_block block member mentions)
      rw [timing.markStmt_eq inside] at knows ⊢
      rw [Marked.marks, ← List.singleton_append] at knows
      obtain ⟨own, inner⟩ := knows.append
      rw [Site.weave_mk, Marked.abandoned]
      refine tells_apply (timing.mark_holds s m) silent apart ?_ (own.probes _ List.mem_cons_self) ?_
        (tells_blocks timing blocks below _ inner)
        fun own marked direct notLoop => timing.control_of_site marked direct notLoop _
      · simpa using own.temporaries
      · simp [timing.length_markBlocks]

end Body

/-- On every path through a rebuilt body starts and stops are balanced exactly when no path leaves a
timed loop early. -/
theorem weaveBlock_balanced_iff (timing : Timing) (site : Site) (body : List Stmt) (m : Mapping)
    (silent : ∀ s ∈ body,
      ¬ (Eraser.ofMarked site (timing.markBlock body m).1).Mentions (.stmt s))
    (apart : (Eraser.ofMarked site (timing.markBlock body m).1).Apart) :
    let marked := (timing.markBlock body m).1
    let E := Eraser.ofMarked site marked
    (∀ es x, Stmt.blockPaths (probeEvent? E.references) (site.weaveBlock marked).1 es x →
        Balanced es) ↔
      ∀ left x, Marked.blockAbandoned marked left x → left = [] := by
  intro marked E
  have tells : Tells E site (site.weaveBlock marked).1 (Marked.blockAbandoned marked) :=
    tells_block timing (fun s _ => tellsMarked_stmt timing apart s) silent m
      (Eraser.knows_ofMarked site marked)
  constructor
  · intro balanced left x path
    obtain ⟨es, run, leaves⟩ := tells.back left x path
    exact leaves.eq_nil (balanced es x run)
  · intro nothing es x run
    obtain ⟨left, path, leaves⟩ := tells.forth es x run
    obtain rfl := nothing left x path
    exact leaves.balanced

/-- `f()` -/
def standaloneCall : Stmt :=
  .expression .nowhere (.call .nowhere (loaded "f") [] [])

/-- A loop over `xs`. -/
def loopOver (body : List Stmt) : Stmt :=
  .forLoop .nowhere false (.name "x" .store) (loaded "xs") body []

/-- The mark of `f()`. -/
def markedCall : Marked :=
  .mk standaloneCall ⟨some ⟨.standalone, "probe1_f"⟩, [], some (.call .nowhere (loaded "f") [] [])⟩ []

theorem markBlock_loopOver_call :
    (timesAll.markBlock [loopOver [standaloneCall]] (unmapped "t")).1 =
      [.mk (loopOver [standaloneCall]) ⟨some ⟨.loop, "loop1_run"⟩, [], some (loaded "xs")⟩
        [[markedCall], []]] := by
  cbv

/-- `for x in xs: f()` stops its probes on every path. -/
theorem loopOver_call_balanced :
    let marked := (timesAll.markBlock [loopOver [standaloneCall]] (unmapped "t")).1
    Eraser.ofMarked (declaredIn none) marked = ⟨[["loop1_run"], ["probe1_f"]], []⟩ ∧
      ∀ es x, Stmt.blockPaths (probeEvent? [["loop1_run"], ["probe1_f"]])
        ((declaredIn none).weaveBlock marked).1 es x → Balanced es := by
  have known : Eraser.ofMarked (declaredIn none)
      (timesAll.markBlock [loopOver [standaloneCall]] (unmapped "t")).1 =
        ⟨[["loop1_run"], ["probe1_f"]], []⟩ := by
    cbv
  have chains : (Node.stmt (loopOver [standaloneCall])).chains = [["x"], ["xs"], ["f"]] := by cbv
  have marks : Marked.blockAbandoned
      (timesAll.markBlock [loopOver [standaloneCall]] (unmapped "t")).1 =
        leftEarly "loop1_run" (Loop (.quiet .fell) (.quiet .fell)) := by
    rw [markBlock_loopOver_call]
    simp only [Marked.blockAbandoned, Marked.abandoned, Marked.abandonedEach, markedCall, seq_quiet]
    rfl
  have stays : ∀ (es : List String) (x : Exit), Loop (.quiet .fell) (.quiet .fell) es x →
      es = [] ∧ x = .fell := by
    intro es x run
    induction run with
    | ended last => exact last
    | broken left => cases left.2
    | returned left => cases left.2
    | turned turn _ _ ih => exact ⟨by rw [turn.1, ih.1, List.append_nil], ih.2⟩
  have balanced :=
    weaveBlock_balanced_iff timesAll (declaredIn none) [loopOver [standaloneCall]] (unmapped "t")
  simp only [known, List.forall_mem_singleton] at balanced
  refine ⟨known, (balanced ?_ (by simp [Eraser.Apart])).mpr fun left x path => ?_⟩
  · rw [Eraser.Mentions, chains]
    decide
  · rw [marks] at path
    obtain ⟨inner, run, rfl⟩ := path
    obtain ⟨rfl, rfl⟩ := stays inner x run
    rfl

theorem markBlock_loopOver_return :
    (timesAll.markBlock [loopOver [standaloneCall, .returned .nowhere none]] (unmapped "t")).1 =
      [.mk (loopOver [standaloneCall, .returned .nowhere none])
        ⟨some ⟨.loop, "loop1_run"⟩, [], some (loaded "xs")⟩
        [[markedCall, .mk (.returned .nowhere none) ⟨none, [], none⟩ []], []]] := by
  cbv

/-- `for x in xs: f(); return` leaves the probe of the loop running when it returns. -/
theorem loopOver_return_unbalanced :
    (∀ s ∈ [loopOver [standaloneCall, .returned .nowhere none]],
        ¬ Eraser.Mentions ⟨[["loop1_run"], ["probe1_f"]], []⟩ (.stmt s)) ∧
      ∃ es, Stmt.blockPaths (probeEvent? [["loop1_run"], ["probe1_f"]])
          ((declaredIn none).weaveBlock (timesAll.markBlock
            [loopOver [standaloneCall, .returned .nowhere none]] (unmapped "t")).1).1 es .returned ∧
        es.count (.start ["loop1_run"]) = es.count (.stop ["loop1_run"]) + 1 ∧ ¬ Balanced es := by
  have known : Eraser.ofMarked (declaredIn none)
      (timesAll.markBlock [loopOver [standaloneCall, .returned .nowhere none]] (unmapped "t")).1 =
        ⟨[["loop1_run"], ["probe1_f"]], []⟩ := by
    cbv
  have chains : (Node.stmt (loopOver [standaloneCall, .returned .nowhere none])).chains =
      [["x"], ["xs"], ["f"]] := by
    cbv
  have chain : (declaredIn none).chain "loop1_run" = ["loop1_run"] := by cbv
  have marks : Marked.blockAbandoned
      (timesAll.markBlock [loopOver [standaloneCall, .returned .nowhere none]] (unmapped "t")).1 =
        leftEarly "loop1_run" (Loop (.quiet .returned) (.quiet .fell)) := by
    rw [markBlock_loopOver_return]
    simp only [Marked.blockAbandoned, Marked.abandoned, Marked.abandonedEach, markedCall, seq_quiet]
    exact congrArg (fun body => leftEarly "loop1_run" (Loop body _)) (quiet_seq _)
  have silent : ∀ s ∈ [loopOver [standaloneCall, .returned .nowhere none]],
      ¬ Eraser.Mentions ⟨[["loop1_run"], ["probe1_f"]], []⟩ (.stmt s) := by
    rw [List.forall_mem_singleton, Eraser.Mentions, chains]
    decide
  have apart : Eraser.Apart ⟨[["loop1_run"], ["probe1_f"]], []⟩ := by simp [Eraser.Apart]
  have tells := tells_block timesAll (fun s _ => tellsMarked_stmt timesAll apart s) silent
    (unmapped "t") (known ▸ Eraser.knows_ofMarked (declaredIn none) _)
  rw [marks] at tells
  obtain ⟨es, run, leaves⟩ := tells.back ["loop1_run"] .returned ⟨[], .returned ⟨rfl, rfl⟩, rfl⟩
  refine ⟨silent, es, run, ?_, fun balanced => ?_⟩
  · have counted := leaves.counted ["loop1_run"]
    rwa [List.map_singleton, chain, List.count_singleton_self] at counted
  · cases leaves.eq_nil balanced

end ProbeWeave.Weaving
