import ProbeWeave.Proofs.Weaving.Pieces
import ProbeWeave.Proofs.Weaving.References

/-! # Weaving does what mapping recorded

Mapping and weaving go through the statements of a routine apart from each other. All that mapping
recorded is nevertheless applied, and once: the calls and the statements that are started, those that
are stopped and those that events tell of are the recorded ones, in every module whose file is there.
-/

namespace ProbeWeave

/-- Whether an event tells of a probe around a call or around a loop. -/
def Event.tells (e : Event) : Bool :=
  match e.kind with
  | .call | .returned | .loop => true
  | _ => false

namespace Weaving

open Syntax Probe Project

/-! ### New bodies -/

namespace Piece

variable {site : Site} {ps : List Piece} {ws : List Wrap} {ss : List Stmt}

/-- Puts pieces at the end of a body, but in front of a `return` that ends it. -/
def putLast (site : Site) (ps report : List Piece) : List Piece :=
  match ps.getLast? with
  | some p => if (render site p).isReturn then ps.dropLast ++ report ++ [p] else ps ++ report
  | none => report

/-- Puts a piece at the start of a body, but behind a text that it begins with. -/
def putFirst (site : Site) (ps : List Piece) (p : Piece) : List Piece :=
  match ps with
  | first :: rest => if (render site first).isText then first :: p :: rest else p :: ps
  | [] => [p]

theorem render_putLast (site : Site) (ps report : List Piece) :
    (putLast site ps report).map (render site) =
      Weaving.putLast (ps.map (render site)) (report.map (render site)) := by
  unfold putLast Weaving.putLast
  rw [List.getLast?_map]
  cases ps.getLast? with
  | none => rfl
  | some p =>
    dsimp only [Option.map_some]
    split
    · simp only [List.map_append, List.map_dropLast, List.map_singleton]
    · rw [List.map_append]

theorem render_putFirst (site : Site) (ps : List Piece) (p : Piece) :
    (putFirst site ps p).map (render site) = Weaving.putFirst (ps.map (render site)) (render site p) := by
  cases ps with
  | nil => rfl
  | cons first rest =>
    rw [putFirst, List.map_cons, Weaving.putFirst]
    split <;> rfl

theorem balanced_putLast (balanced : Balanced site ps ws ss) (report : List Stmt) :
    Balanced site (putLast site ps (report.map extra)) ws ss := by
  unfold putLast
  split
  · rename_i p last
    split
    · exact balanced.insert ps.dropLast [p] (List.dropLast_append_getLast? p last).symm report
    · have behind := balanced.insert ps [] (List.append_nil ps).symm report
      rwa [List.append_nil] at behind
  · rename_i none
    have alone := balanced.insert [] ps rfl report
    rwa [List.getLast?_eq_none_iff.mp none, List.append_nil] at alone

theorem balanced_putFirst (balanced : Balanced site ps ws ss) (s : Stmt) :
    Balanced site (putFirst site ps (extra s)) ws ss := by
  unfold putFirst
  split
  · rename_i first rest
    split
    · exact balanced.insert [first] rest rfl [s]
    · exact balanced.insert [] (first :: rest) rfl [s]
  · exact balanced.insert [] [] rfl [s]

end Piece

namespace Setting

variable {setting : Setting} {unit : SourceUnit} {r : RoutinePlan}

/-- The pieces of the new body of a routine. -/
def pieces (setting : Setting) (unit : SourceUnit) (r : RoutinePlan) : List Piece :=
  let site := setting.site unit
  let woven := Piece.ofBlock r.body
  let reported :=
    if setting.reports r.definition.routine then
      Piece.putLast site woven ((setting.reportStatements r.definition.routine).map .extra)
    else woven
  if site.needsHomeImport && !(site.weaveBlock r.body).2.isEmpty then
    Piece.putFirst site reported (.extra site.homeImport)
  else reported

/-- The statements of the new body are its pieces. -/
theorem render_pieces (setting : Setting) (unit : SourceUnit) (r : RoutinePlan) :
    Piece.renderBlock (setting.site unit) (setting.pieces unit r) = (setting.rebuildBody unit r).1 := by
  have woven := Piece.render_ofBlock (setting.site unit) r.body
  rw [Piece.renderBlock_eq] at woven ⊢
  unfold pieces rebuildBody
  dsimp only
  split
  · rw [Piece.render_putFirst, Piece.render]
    refine congrArg (putFirst · _) ?_
    split
    · rw [Piece.render_putLast, woven, Piece.map_render_extra]
    · exact woven
  · split
    · rw [Piece.render_putLast, woven, Piece.map_render_extra]
    · exact woven

/-- The new body of a marked routine starts and stops what mapping recorded. -/
theorem balanced_pieces (setting : Setting) (unit : SourceUnit) {timing : Timing} {m : Mapping}
    (marked : r.body = (timing.markBlock r.definition.body m).1) :
    Piece.Balanced (setting.site unit) (setting.pieces unit r) (recorded r.body)
      (r.definition.body.flatMap Stmt.walk) := by
  have woven : Piece.Balanced (setting.site unit) (Piece.ofBlock r.body) (recorded r.body)
      (r.definition.body.flatMap Stmt.walk) :=
    marked ▸ Timing.balanced_markBlock (setting.site unit) r.definition.body m
  unfold pieces
  dsimp only
  split
  · refine Piece.balanced_putFirst ?_ _
    split
    · exact Piece.balanced_putLast woven _
    · exact woven
  · split
    · exact Piece.balanced_putLast woven _
    · exact woven

/-- All pieces of the new bodies in a module. -/
def inserted (setting : Setting) (plan : UnitPlan) : List Piece :=
  (setting.rebuilt plan).flatMap fun r => Piece.allOfBlock (setting.pieces plan.unit r)

end Setting

/-! ### Events -/

/-- The events that tell of what mapping recorded in a routine. -/
def RoutinePlan.told (r : RoutinePlan) (unit : SourceUnit) : List Event :=
  (recorded r.body).map fun w => w.change.event unit r.definition.routine

theorem tells_event (c : Change) (unit : SourceUnit) (r : Graph.Routine) :
    (c.event unit r).tells = true := by
  obtain ⟨kind, probe⟩ := c
  cases kind <;> rfl

/-- An event of a kind that changes have tells of a probe. -/
theorem tells_of_kind (e : Event) (kind : ChangeKind) :
    (e.kind == kind.eventKind) = (e.kind == kind.eventKind && e.tells) := by
  by_cases own : e.kind = kind.eventKind
  · have tells : e.tells = true := by
      rw [Event.tells, own]
      cases kind <;> rfl
    rw [tells, Bool.and_true]
  · rw [beq_eq_false_iff_ne.mpr own, Bool.false_and]

theorem countP_tells (kind : ChangeKind) (events : List Event) :
    events.countP (·.kind == kind.eventKind) =
      (events.filter Event.tells).countP (·.kind == kind.eventKind) := by
  rw [List.countP_filter]
  exact List.countP_congr fun e _ => by rw [← tells_of_kind e kind]

/-- The events of one kind are as many as the recorded changes of that kind. -/
theorem countP_told (kind : ChangeKind) (plans : List UnitPlan) :
    (plans.flatMap fun plan => plan.routines.flatMap fun r => r.told plan.unit).countP
        (·.kind == kind.eventKind) =
      (plans.flatMap fun plan => plan.routines.flatMap fun r => recorded r.body).countP
        (·.change.kind == kind) := by
  have same (w : Wrap) (unit : SourceUnit) (r : Graph.Routine) :
      ((w.change.event unit r).kind == kind.eventKind) = (w.change.kind == kind) := by
    rw [Change.event]
    cases w.change.kind <;> cases kind <;> rfl
  simp only [List.countP_flatMap, Function.comp_def, RoutinePlan.told, List.countP_map, same]

/-- In a routine that has nothing to time, nothing was recorded. -/
theorem recorded_eq_nil {r : RoutinePlan} (idle : r.isActive = false) : recorded r.body = [] := by
  rw [recorded, List.flatMap_eq_nil_iff]
  rintro ⟨s, mark⟩ member
  have marked := List.mem_map_of_mem (f := Prod.snd) member
  rw [Marked.map_nodesOfBlock] at marked
  have quiet := List.any_eq_false.mp idle mark marked
  rw [Mark.isActive, Bool.not_eq_true, Bool.or_eq_false_iff, Option.isSome_eq_false_iff,
    Bool.not_eq_false', List.isEmpty_iff] at quiet
  obtain ⟨site, hoists⟩ := quiet
  rw [Wrap.ofNode, hoists, Option.isNone_iff_eq_none.mp site]
  rfl

namespace Setting

variable {setting : Setting} {unit : SourceUnit} {lines : List String} {edits : List LineEdit}

/-- The events of a rebuilt routine tell of what mapping recorded, and perhaps of the report. -/
theorem told_routineEvents (setting : Setting) (unit : SourceUnit) (r : RoutinePlan) :
    ((setting.routineEvents unit r.definition.routine (setting.rebuildBody unit r).2).filter
      Event.tells).Perm (r.told unit) := by
  have silent : (if setting.reports r.definition.routine then
      [(⟨.report, r.definition.routine.qualifiedName, some unit.path⟩ : Event)] else []).filter
        Event.tells = [] := by
    split <;> rfl
  have told (cs : List Change) : (cs.map (·.event unit r.definition.routine)).filter Event.tells =
      cs.map (·.event unit r.definition.routine) := by
    refine List.filter_eq_self.mpr fun e member => ?_
    obtain ⟨c, -, rfl⟩ := List.mem_map.mp member
    exact tells_event c unit _
  rw [routineEvents, List.filter_append, silent, List.append_nil, told, RoutinePlan.told]
  have changes := (changes_weaveBlock (setting.site unit) r.body).map
    (·.event unit r.definition.routine)
  rwa [List.map_map] at changes

theorem events_rebuildRoutines {plans : List RoutinePlan}
    (success : (setting.rebuildRoutines unit lines plans).2 = .ok edits) :
    (setting.rebuildRoutines unit lines plans).1 = plans.flatMap fun r =>
      setting.routineEvents unit r.definition.routine (setting.rebuildBody unit r).2 := by
  induction plans generalizing edits with
  | nil => rfl
  | cons plan rest ih =>
    rw [rebuildRoutines] at success ⊢
    generalize first : setting.rebuildRoutine unit lines plan = outcome at success ⊢
    obtain ⟨events, fault | edit⟩ := outcome
    · cases success
    · have own : events = setting.routineEvents unit plan.definition.routine
          (setting.rebuildBody unit plan).2 := (congrArg Prod.fst first).symm
      generalize others : setting.rebuildRoutines unit lines rest = outcome at success ih ⊢
      obtain ⟨more, fault | later⟩ := outcome
      · cases success
      · rw [List.flatMap_cons, ← own]
        exact congrArg (events ++ ·) (ih rfl)

/-- The routines that are not rebuilt have nothing recorded. -/
theorem flatMap_rebuilt {α : Type} (setting : Setting) (plan : UnitPlan) {f : RoutinePlan → List α}
    (idle : ∀ r, recorded r.body = [] → f r = []) :
    (setting.rebuilt plan).flatMap f = plan.routines.flatMap f := by
  unfold rebuilt
  induction plan.routines with
  | nil => rfl
  | cons r rest ih =>
    rw [List.filter_cons, List.flatMap_cons]
    split
    · rw [List.flatMap_cons, ih]
    · rename_i none
      obtain ⟨quiet, -⟩ := Bool.or_eq_false_iff.mp (Bool.eq_false_iff.mpr none)
      rw [ih, idle r (recorded_eq_nil quiet), List.nil_append]

/-- The events of a module tell of what mapping recorded in its routines. -/
theorem told_unitEdits {plan : UnitPlan} (success : (setting.unitEdits plan).2 = .ok edits) :
    ((setting.unitEdits plan).1.filter Event.tells).Perm
      (plan.routines.flatMap fun r => r.told plan.unit) := by
  have events : (setting.unitEdits plan).1.filter Event.tells =
      (((setting.rebuilt plan).flatMap fun r => setting.routineEvents plan.unit r.definition.routine
        (setting.rebuildBody plan.unit r).2)).filter Event.tells := by
    unfold unitEdits at success ⊢
    dsimp only at success ⊢
    generalize found : setting.rebuildRoutines plan.unit _ (setting.rebuilt plan) = outcome
      at success ⊢
    obtain ⟨events, fault | edits⟩ := outcome
    · cases success
    · have all := events_rebuildRoutines (congrArg Prod.snd found)
      rw [found] at all
      dsimp only at all ⊢
      rw [← all]
      split
      · rw [List.filter_append]
        exact List.append_nil _
      · rfl
  rw [events, List.filter_flatMap, ← setting.flatMap_rebuilt plan fun r none => by
    rw [RoutinePlan.told, none, List.map_nil]]
  exact List.Perm.flatMap_left _ fun r _ => setting.told_routineEvents plan.unit r

end Setting

/-- The events of a module are those of its edits. -/
theorem Setting.weaveUnit_events (setting : Setting) (plan : UnitPlan) :
    (setting.weaveUnit plan).1 = (setting.unitEdits plan).1 := by
  unfold weaveUnit
  dsimp only
  generalize setting.unitEdits plan = outcome
  obtain ⟨events, fault | edits⟩ := outcome
  · rfl
  · rfl

/-! ### Targets -/

/-- The target of an event shows the routine and the probe apart, since no blank is in the name of a
probe. -/
theorem target_injective {q r p c : String} (blank : ' ' ∉ p.toList) (none : ' ' ∉ c.toList)
    (same : q ++ " -> " ++ p = r ++ " -> " ++ c) : q = r ∧ p = c := by
  have chars := congrArg (fun s => s.toList.reverse) same
  simp only [String.toList_append, List.reverse_append] at chars
  have take (name : String) (free : ' ' ∉ name.toList) (before : List Char) :
      (name.toList.reverse ++ (" -> ".toList.reverse ++ before)).takeWhile (· ≠ ' ') =
        name.toList.reverse := by
    have plain : ∀ x ∈ name.toList.reverse, (x ≠ ' ' : Bool) = true := by
      intro x member
      have other : x ≠ ' ' := fun eq => free (eq ▸ List.mem_reverse.mp member)
      simpa using other
    rw [List.takeWhile_append_of_pos plain]
    exact List.append_nil _
  have probes := congrArg (List.takeWhile (· ≠ ' ')) chars
  rw [take p blank, take c none, List.reverse_inj, String.toList_inj] at probes
  subst probes
  have routines := List.append_cancel_left (List.append_cancel_left chars)
  rw [List.reverse_inj, String.toList_inj] at routines
  exact ⟨routines, rfl⟩

/-- The events with one target tell of the recorded sites of one probe in the routines of one name. -/
theorem filter_told {fields : List String} (blankless : ∀ name ∈ fields, ' ' ∉ name.toList)
    {routines : List RoutinePlan} (unit : SourceUnit)
    (declared : ∀ r ∈ routines, ∀ w ∈ recorded r.body, w.probe ∈ fields) (q : String) {p : String}
    (field : p ∈ fields) :
    (routines.flatMap fun r => r.told unit).filter (·.target == q ++ " -> " ++ p) =
      (routines.filter (·.definition.routine.qualifiedName == q)).flatMap fun r =>
        ((recorded r.body).filter (·.probe == p)).map fun w =>
          w.change.event unit r.definition.routine := by
  induction routines with
  | nil => rfl
  | cons r rest ih =>
    obtain ⟨own, others⟩ := List.forall_mem_cons.mp declared
    have target : ∀ w ∈ recorded r.body,
        ((w.change.event unit r.definition.routine).target == q ++ " -> " ++ p) =
          (r.definition.routine.qualifiedName == q && w.probe == p) := by
      intro w member
      rw [Bool.eq_iff_iff, Bool.and_eq_true, beq_iff_eq, beq_iff_eq, beq_iff_eq, Change.event,
        w.probe_change]
      exact ⟨target_injective (blankless _ (own w member)) (blankless p field),
        fun ⟨routine, probe⟩ => by rw [routine, probe]⟩
    have first : (r.told unit).filter (·.target == q ++ " -> " ++ p) =
        ((recorded r.body).filter fun w =>
          r.definition.routine.qualifiedName == q && w.probe == p).map fun w =>
            w.change.event unit r.definition.routine := by
      rw [RoutinePlan.told, List.filter_map]
      exact congrArg (List.map _) (List.filter_congr target)
    rw [List.flatMap_cons, List.filter_append, ih others, first, List.filter_cons]
    split
    · rename_i named
      rw [List.flatMap_cons, named]
      simp only [Bool.true_and]
    · rename_i named
      rw [Bool.eq_false_iff.mpr named]
      simp only [Bool.false_and, List.filter_false, List.map_nil, List.nil_append]

/-! ### Modules -/

/-- How weaving a module applies what mapping recorded in it. -/
structure Applies (setting : Setting) (plan : UnitPlan) (events : List Event) : Prop where
  /-- The new body of a rebuilt routine consists of pieces. -/
  pieces : ∀ r ∈ setting.rebuilt plan,
    Piece.renderBlock (setting.site plan.unit) (setting.pieces plan.unit r) =
      (setting.rebuildBody plan.unit r).1
  /-- At any depth, the pieces are the statements of the new body. -/
  walk : ∀ r ∈ setting.rebuilt plan, (setting.rebuildBody plan.unit r).1.flatMap Stmt.walk =
    (Piece.allOfBlock (setting.pieces plan.unit r)).map (Piece.render (setting.site plan.unit))
  /-- The other pieces are statements of the routine, in their order. -/
  kept : ∀ r ∈ setting.rebuilt plan,
    ((Piece.allOfBlock (setting.pieces plan.unit r)).filterMap Piece.own?).Sublist
      (r.definition.body.flatMap Stmt.walk)
  /-- What mapping recorded is started, each once and in its order. -/
  started : (setting.inserted plan).filterMap Piece.started? =
    plan.routines.flatMap fun r => recorded r.body
  /-- It is stopped, each once. -/
  stopped : ((setting.inserted plan).filterMap Piece.stopped?).Perm
    (plan.routines.flatMap fun r => recorded r.body)
  /-- Events tell of it, each once. -/
  told : (events.filter Event.tells).Perm (plan.routines.flatMap fun r => r.told plan.unit)
  /-- There are as many starts and as many stops as events. -/
  equally :
    ((setting.inserted plan).filterMap Piece.started?).length = (events.filter Event.tells).length ∧
      ((setting.inserted plan).filterMap Piece.stopped?).length = (events.filter Event.tells).length
  /-- The events with a target are those of the sites with its probe in the routines of its name. -/
  targets : ∀ (q : String), ∀ p ∈ setting.registry.fieldNames,
    ((events.filter Event.tells).filter (·.target == q ++ " -> " ++ p)).Perm
      ((plan.routines.filter (·.definition.routine.qualifiedName == q)).flatMap fun r =>
        ((recorded r.body).filter (·.probe == p)).map fun w =>
          w.change.event plan.unit r.definition.routine)

variable {a : Analysis} {registry : Registry} {profile : Profile} {plan : UnitPlan}

/-- The probes of what mapping recorded are declared. -/
theorem declared_recorded {fields : List String} {b : List Marked}
    (declared : Declared fields (Marked.marksOfBlock b)) : ∀ w ∈ recorded b, w.probe ∈ fields := by
  intro w member
  obtain ⟨x, node, own⟩ := List.mem_flatMap.mp member
  have marked := List.mem_map_of_mem (f := Prod.snd) node
  rw [Marked.map_nodesOfBlock] at marked
  refine declared x.2 marked w.probe ?_
  rcases List.mem_append.mp own with ahead | around
  · obtain ⟨hoist, moved, rfl⟩ := List.mem_map.mp ahead
    exact List.mem_append_left _ (List.mem_map_of_mem moved)
  · obtain ⟨site, found, rfl⟩ := Option.map_eq_some_iff.mp (Option.mem_toList.mp around)
    exact List.mem_append_right _ (Option.mem_toList.mpr (Option.map_eq_some_iff.mpr ⟨site, found, rfl⟩))

/-- Weaving applies what was recorded if the new bodies are balanced and their probes are declared. -/
theorem applies_of_balanced {setting : Setting} {events : List Event}
    (balanced : ∀ r ∈ setting.rebuilt plan, Piece.Balanced (setting.site plan.unit)
      (setting.pieces plan.unit r) (recorded r.body) (r.definition.body.flatMap Stmt.walk))
    (declared : ∀ r ∈ plan.routines, ∀ w ∈ recorded r.body, w.probe ∈ setting.registry.fieldNames)
    (blankless : ∀ name ∈ setting.registry.fieldNames, ' ' ∉ name.toList)
    (told : (events.filter Event.tells).Perm (plan.routines.flatMap fun r => r.told plan.unit)) :
    Applies setting plan events := by
  have all : ((setting.rebuilt plan).flatMap fun r => recorded r.body) =
      plan.routines.flatMap fun r => recorded r.body :=
    setting.flatMap_rebuilt plan fun _ none => none
  have started : (setting.inserted plan).filterMap Piece.started? =
      plan.routines.flatMap fun r => recorded r.body := by
    rw [Setting.inserted, List.filterMap_flatMap, ← all]
    exact List.flatMap_congr fun r member => (balanced r member).started
  have stopped : ((setting.inserted plan).filterMap Piece.stopped?).Perm
      (plan.routines.flatMap fun r => recorded r.body) := by
    rw [Setting.inserted, List.filterMap_flatMap, ← all]
    exact List.Perm.flatMap_left _ fun r member => (balanced r member).stopped
  have counted : (events.filter Event.tells).length =
      (plan.routines.flatMap fun r => recorded r.body).length := by
    rw [told.length_eq, List.length_flatMap, List.length_flatMap]
    simp only [RoutinePlan.told, List.length_map]
  refine ⟨fun r _ => setting.render_pieces plan.unit r, fun r member => ?_,
    fun r member => (balanced r member).kept, started, stopped, told,
    ⟨by rw [started, counted], by rw [stopped.length_eq, counted]⟩, fun q p field => ?_⟩
  · rw [← setting.render_pieces plan.unit r]
    exact Piece.walk_renderBlock (balanced r member).walk
  · rw [← filter_told blankless plan.unit declared q field]
    exact told.filter _

/-- The new body of a rebuilt routine starts and stops what mapping recorded. -/
theorem balanced_of_rebuilt (setting : Setting) (planned : plan ∈ plansOf a registry) {r : RoutinePlan}
    (rebuilt : r ∈ setting.rebuilt plan) :
    Piece.Balanced (setting.site plan.unit) (setting.pieces plan.unit r) (recorded r.body)
      (r.definition.body.flatMap Stmt.walk) := by
  obtain ⟨timing, m, marked⟩ := marked_of_mem_mapRoutines
    (mapped_of_mem_routines planned (List.mem_of_mem_filter rebuilt)).1
  exact Setting.balanced_pieces _ _ marked

/-- Weaving a planned module applies what mapping recorded in it. -/
theorem applies_of_told (of : a.Of profile) (reached : Instrumentation.Reaches a registry)
    (planned : plan ∈ plansOf a registry) {events : List Event}
    (told : (events.filter Event.tells).Perm (plan.routines.flatMap fun r => r.told plan.unit)) :
    Applies (Instrumentation.settingOf a registry profile) plan events := by
  have maps := maps_mapGraph (a := a) registry
  refine applies_of_balanced (fun r rebuilt => balanced_of_rebuilt _ planned rebuilt)
    (fun r member => declared_recorded (declared_of_mem_routines planned member))
    (fun name field => (maps.ordered (reached.invariant of).2).not_mem_blank field) told

/-- A module in which mapping met a routine is being woven. -/
theorem applying_of_planned (planned : plan ∈ plansOf a registry) (met : plan.routines ≠ []) :
    plan.state = .applying :=
  (state_plansOf planned).trans (if_neg met)

end Weaving

namespace Instrumentation

open Syntax Probe Weaving

variable {a : Analysis} {registry : Registry} {profile : Profile} {tree : Files.FileTree}
  {setting : Setting} {plan : UnitPlan} {units : List WovenUnit}

/-- A module whose file is gone, or in which mapping met nothing, is told of by a warning at most. -/
theorem told_of_absent (absent : tree.isFile plan.unit.path.names = false) :
    (applyPlan setting tree plan).1.filter Event.tells = [] := by
  unfold applyPlan
  rw [absent]
  split
  · rfl
  · rfl

/-- The events of a module whose file is there tell of what mapping recorded in it. -/
theorem told_applyPlan (planned : plan ∈ plansOf a registry)
    (present : tree.isFile plan.unit.path.names = true) {woven : Option WovenUnit}
    (success : (applyPlan setting tree plan).2 = .ok woven) :
    ((applyPlan setting tree plan).1.filter Event.tells).Perm
      (plan.routines.flatMap fun r => r.told plan.unit) := by
  by_cases met : plan.state = .applying
  · rw [applyPlan_of_applying met present] at success ⊢
    obtain ⟨edits, built, -⟩ := weaveUnit_cases success
    rw [Setting.weaveUnit_events]
    exact Setting.told_unitEdits built
  · have none : plan.routines = [] := by
      by_contra some
      exact met (applying_of_planned planned some)
    rw [applyPlan, if_pos (by simpa using met), none]
    exact .refl _

/-- The events of modules whose files are gone tell of no probe. -/
theorem flatMap_present (setting : Setting) (tree : Files.FileTree) (plans : List UnitPlan) :
    (plans.flatMap fun plan => (applyPlan setting tree plan).1.filter Event.tells) =
      (plans.filter fun plan => tree.isFile plan.unit.path.names).flatMap fun plan =>
        (applyPlan setting tree plan).1.filter Event.tells := by
  induction plans with
  | nil => rfl
  | cons plan rest ih =>
    rw [List.flatMap_cons, List.filter_cons, ih]
    split
    · rfl
    · rename_i absent
      exact congrArg (· ++ _) (told_of_absent (Bool.eq_false_iff.mpr absent))

/-- The events of all modules tell of what mapping recorded in those whose files are there. -/
theorem told_applyPlans (success : (applyPlans (settingOf a registry profile) tree
      (plansOf a registry)).2 = .ok units) :
    ((applyPlans (settingOf a registry profile) tree (plansOf a registry)).1.filter Event.tells).Perm
      (((plansOf a registry).filter fun plan => tree.isFile plan.unit.path.names).flatMap fun plan =>
        plan.routines.flatMap fun r => r.told plan.unit) := by
  obtain ⟨told, each⟩ := events_applyPlans success
  rw [told, List.filter_flatMap, flatMap_present]
  refine List.Perm.flatMap_left _ fun plan member => ?_
  obtain ⟨planned, present⟩ := List.mem_filter.mp member
  obtain ⟨woven, made, -⟩ := each plan planned
  exact told_applyPlan planned present made

/-- A module that is woven gets the text that its edits make, and the events of these. -/
theorem exists_edits_of_applyPlan (met : plan.state = .applying)
    (present : tree.isFile plan.unit.path.names = true) {woven : Option WovenUnit}
    (success : (applyPlan setting tree plan).2 = .ok woven) :
    ∃ edits, setting.unitEdits plan = ((applyPlan setting tree plan).1, .ok edits) ∧
      (edits = [] ∨ applyEdits plan.unit.source edits = plan.unit.source ∨
        ∃ u ∈ woven, u = ⟨plan.unit, applyEdits plan.unit.source edits,
          (applyPlan setting tree plan).1⟩) := by
  rw [applyPlan_of_applying met present] at success ⊢
  obtain ⟨edits, built, cases⟩ := weaveUnit_cases success
  refine ⟨edits, Prod.ext (Setting.weaveUnit_events setting plan).symm built, ?_⟩
  refine cases.imp id (Or.imp id fun ⟨u, made, unit, source⟩ => ⟨u, made, ?_⟩)
  obtain rfl := Option.mem_def.mp made
  obtain ⟨_, own, -, -⟩ := weaveUnit_eq_ok success
  cases u
  rw [WovenUnit.mk.injEq, Setting.weaveUnit_events, own]
  exact ⟨unit, source, rfl⟩

/-- Weaving applies what mapping recorded.

In every module whose file is there, all that mapping recorded in its routines is started once and
stopped once in the new bodies, and events tell of it once; the new bodies are put in the places of the
old ones. Nothing is told of other modules, so the events of the whole instrumentation count the calls,
the returned calls and the loops that mapping recorded. -/
theorem recorded_applied {w : Files.World} (analysed : (Analysis.ofProfile w profile).1 = .ok a)
    (reached : Reaches a registry) (success : (run a registry profile tree).units = .ok units) :
    let setting := settingOf a registry profile
    let events := fun plan => (applyPlan setting tree plan).1
    let present := (plansOf a registry).filter fun plan => tree.isFile plan.unit.path.names
    (∀ plan ∈ present, Applies setting plan (events plan) ∧
      (plan.routines ≠ [] → ∃ edits, setting.unitEdits plan = (events plan, .ok edits) ∧
        (∀ r ∈ setting.rebuilt plan, ∃ e ∈ edits,
          Setting.definitionEdit ((Text.sourceLines plan.unit.source).map Text.withoutBreak)
            r.definition.statement
            (withBody r.definition.statement (setting.rebuildBody plan.unit r).1) = .ok e) ∧
        (edits = [] ∨ applyEdits plan.unit.source edits = plan.unit.source ∨
          ∃ u ∈ units, u = ⟨plan.unit, applyEdits plan.unit.source edits, events plan⟩))) ∧
    (run a registry profile tree).events = (plansOf a registry).flatMap events ∧
    ((run a registry profile tree).events.filter Event.tells).Perm
      (present.flatMap fun plan => plan.routines.flatMap fun r => r.told plan.unit) ∧
    ∀ kind : ChangeKind, (run a registry profile tree).events.countP (·.kind == kind.eventKind) =
      (present.flatMap fun plan => plan.routines.flatMap fun r => recorded r.body).countP
        (·.change.kind == kind) := by
  intro setting events present
  have of := Analysis.of_ofProfile analysed
  obtain ⟨-, applied, same⟩ := applied_of_units success
  obtain ⟨told, each⟩ := events_applyPlans applied
  have whole := told_applyPlans applied
  rw [← same] at told whole
  refine ⟨fun plan member => ?_, told, whole, fun kind => ?_⟩
  · obtain ⟨planned, file⟩ := List.mem_filter.mp member
    obtain ⟨woven, made, kept⟩ := each plan planned
    refine ⟨applies_of_told of reached planned (told_applyPlan planned file made), fun met => ?_⟩
    obtain ⟨edits, built, changes⟩ :=
      exists_edits_of_applyPlan (applying_of_planned planned met) file made
    refine ⟨edits, built, fun r => exists_edit_of_rebuilt (congrArg Prod.snd built), ?_⟩
    exact changes.imp id (Or.imp id fun ⟨u, inMade, own⟩ => ⟨u, kept u inMade, own⟩)
  · rw [countP_tells, whole.countP_eq, countP_told]

end Instrumentation

end ProbeWeave

/-! The sample project: both modules change. -/

namespace ProbeWeave.Weaving.TwoModules

theorem recorded_applied_twoModules :
    (Instrumentation.run analysis analysis.registry profile tree).units =
        .ok [wovenCaller, wovenCalled] ∧
      Applies setting ⟨calledUnit, [fPlan, gPlan], .applying⟩ wovenCalled.events ∧
      (Instrumentation.run analysis analysis.registry profile tree).events.countP (·.kind == .call) =
        2 := by
  obtain ⟨applies, -, -, counted⟩ :=
    Instrumentation.recorded_applied ofProfile_world .own units_twoModules
  rw [settingOf_analysis, plansOf_analysis] at applies
  rw [plansOf_analysis] at counted
  have present : tree.isFile calledUnit.path.names = true := rfl
  have events : (Instrumentation.applyPlan setting tree
      ⟨calledUnit, [fPlan, gPlan], .applying⟩).1 = wovenCalled.events := by
    rw [Instrumentation.applyPlan, present, weaveUnit_called]
    rfl
  have called := (applies ⟨calledUnit, [fPlan, gPlan], .applying⟩
    (List.mem_filter.mpr ⟨.tail _ List.mem_cons_self, present⟩)).1
  exact ⟨units_twoModules, events ▸ called, (counted .call).trans (by cbv)⟩

end ProbeWeave.Weaving.TwoModules
