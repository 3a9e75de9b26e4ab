import ProbeWeave.Proofs.Project.Spans
import ProbeWeave.Proofs.Splicing.Spliced
import ProbeWeave.Proofs.Weaving.Agreement
import ProbeWeave.Proofs.Weaving.Planned

/-! # What weaving leaves alone

The edits of a module replace the lines of the definitions that are rebuilt and insert lines in front
of others. They fit together, so the new text consists of the old lines outside of these definitions
and of generated ones.
-/

namespace ProbeWeave.Weaving

open Syntax ProbeWeave.Graph Probe Project Outcome

/-! ### The lines of a text -/

/-- The lines of a text are the text. -/
theorem join_sourceLines (source : String) : String.join (Text.sourceLines source) = source := by
  apply String.toList_injective
  rw [String.toList_join, Text.sourceLines, List.flatMap_map]
  simp only [String.toList_ofList]
  rw [List.flatMap_id', Text.flatten_cutLines]

/-- All lines stay as they are, or the last one had no break and gets one. -/
theorem closedLines_cases (source newline : String) :
    closedLines source newline = Text.sourceLines source ∨
      ∃ lines last, Text.sourceLines source = lines ++ [last] ∧ endsWithBreak last = false ∧
        closedLines source newline = lines ++ [last ++ newline] := by
  rw [closedLines]
  split
  · rename_i last found
    split
    · exact .inl rfl
    · rename_i open_
      obtain ⟨lines, same⟩ := List.getLast?_eq_some_iff.mp found
      refine .inr ⟨lines, last, same, by simpa using open_, ?_⟩
      rw [same, List.dropLast_concat]
  · rename_i none
    exact .inl (List.getLast?_eq_none_iff.mp none).symm

theorem length_closedLines (source newline : String) :
    (closedLines source newline).length = (Text.sourceLines source).length := by
  rcases closedLines_cases source newline with same | ⟨lines, last, same, -, closed⟩
  · rw [same]
  · simp [same, closed]

/-! ### Where lines are inserted -/

variable {last : Nat} {body : List Stmt}

/-- A line that lines may be inserted in front of. -/
structure Slot (last : Nat) (body : List Stmt) (line : Nat) : Prop where
  clear : Clear body line
  below : 1 ≤ line
  above : line ≤ last + 1

theorem slot_firstLine (lie : Lie 1 last body) (nested : ∀ s ∈ body, Nested s) {s : Stmt}
    (member : s ∈ body) : Slot last body (firstLine s) := by
  have bounds := lie.inside s member
  exact ⟨clear_firstLine lie nested member, bounds.1, by omega⟩

theorem slot_firstLine_of_class (lie : Lie 1 last body) (nested : ∀ s ∈ body, Nested s)
    {lines : Lines} {name : String} {bases : List Expr} {keywords : List Keyword}
    {inner : List Stmt} {decorators : List Decorator}
    (member : .classDef lines name bases keywords inner decorators ∈ body) {s : Stmt}
    (inClass : s ∈ inner) : Slot last body (firstLine s) := by
  have within : Lie lines.first lines.last inner := nested _ member
  have bounds := within.inside s inClass
  have above := firstLine_le (.classDef lines name bases keywords inner decorators)
  have outer := lie.inside _ member
  replace above : firstLine (.classDef lines name bases keywords inner decorators) ≤ lines.first :=
    above
  replace outer : 1 ≤ firstLine (.classDef lines name bases keywords inner decorators) ∧ _ ∧
    lines.last ≤ last := outer
  exact ⟨clear_firstLine_of_class lie nested member inClass, by omega, by omega⟩

theorem mem_of_mem_behindText {s : Stmt} (member : s ∈ behindText body) : s ∈ body := by
  unfold behindText at member
  split at member
  · split at member
    · exact List.mem_cons_of_mem _ member
    · exact member
  · cases member

/-- Statements that are no definitions hold none. -/
theorem indexed_eq_nil (plain : ∀ s ∈ body, s.opensScope = false) : indexed body = [] := by
  refine List.flatMap_eq_nil_iff.mpr fun s member => ?_
  have closed := plain s member
  cases s <;> first | rfl | cases closed

/-- A text is no definition. -/
theorem opensScope_of_isText {s : Stmt} (text : s.isText = true) : s.opensScope = false := by
  cases s <;> first | rfl | cases text

theorem mem_behindText_or_isText {s : Stmt} (member : s ∈ body) :
    s ∈ behindText body ∨ s.isText = true := by
  cases body with
  | nil => cases member
  | cons first rest =>
    rw [behindText]
    split
    · rename_i text
      rcases List.mem_cons.mp member with rfl | member
      · exact .inr text
      · exact .inl member
    · exact .inl member

/-- Lines can be inserted in front of the first statement that is not passed over, and behind all of
them if none is a definition. -/
theorem slot_lineBehind (lie : Lie 1 last body) (nested : ∀ s ∈ body, Nested s)
    {passed : Stmt → Bool} (plain : ∀ s, passed s = true → s.opensScope = false) :
    Slot last body (lineBehind body passed) := by
  unfold lineBehind
  split
  · rename_i s found
    exact slot_firstLine lie nested (mem_of_mem_behindText (List.mem_of_find?_eq_some found))
  · rename_i none
    have closed : ∀ s ∈ body, s.opensScope = false := by
      intro s member
      rcases mem_behindText_or_isText member with behind | text
      · exact plain s (by simpa using List.find?_eq_none.mp none s behind)
      · exact opensScope_of_isText text
    have clear (line : Nat) : Clear body line := by
      rw [Clear, indexed_eq_nil closed]
      simp
    split
    · rename_i s ends
      have bounds := lie.inside s (List.mem_of_getLast? ends)
      exact ⟨clear _, by omega, by omega⟩
    · exact ⟨clear _, le_refl 1, by omega⟩

theorem mem_of_fieldAnchor? {s : Stmt} (found : Setting.fieldAnchor? body = some s) : s ∈ body := by
  unfold Setting.fieldAnchor? at found
  split at found
  · rename_i first rest behind
    cases found
    exact mem_of_mem_behindText (behind ▸ List.mem_cons_self)
  · exact List.mem_of_head? found

/-! ### Edits that replace definitions and insert lines -/

/-- The lines of a definition, its decorators included. -/
def spanOf (plan : RoutinePlan) : Lines :=
  ⟨firstLine plan.definition.statement, plan.definition.statement.lines.last⟩

/-- The first and last line of each edit. -/
def runs (edits : List LineEdit) : List (Int × Int) :=
  edits.map fun e => (e.first, e.last)

/-- The same of spans. -/
def runsOf (spans : List Lines) : List (Int × Int) :=
  spans.map fun l => (↑l.first, ↑l.last)

/-- A rebuilt definition takes the place of the old one. -/
theorem runs_of_rebuildRoutines {setting : Setting} {unit : SourceUnit} {lines : List String}
    {plans : List RoutinePlan} {edits : List LineEdit}
    (success : (setting.rebuildRoutines unit lines plans).2 = .ok edits) :
    runs edits = runsOf (plans.map spanOf) := by
  induction plans generalizing edits with
  | nil =>
    cases success
    rfl
  | cons plan rest ih =>
    rw [Setting.rebuildRoutines] at success
    generalize first : setting.rebuildRoutine unit lines plan = outcome at success
    obtain ⟨events, fault | edit⟩ := outcome
    · cases success
    · generalize others : setting.rebuildRoutines unit lines rest = outcome at success
      obtain ⟨more, fault | later⟩ := outcome
      · cases success
      · cases success
        have place : (edit.first, edit.last) = (((spanOf plan).first : Int), ((spanOf plan).last : Int)) := by
          have made := congrArg Prod.snd first
          simp only [Setting.rebuildRoutine, Setting.definitionEdit, bind_eq_ok, pure_eq_ok] at made
          obtain ⟨_, -, _, -, rfl⟩ := made
          rfl
        have behind := ih (congrArg Prod.snd others)
        simp only [runs, runsOf, List.map_cons] at behind ⊢
        rw [place, behind]

/-- A text with replaced spans and inserted lines: no more is lost and no more is new. -/
structure Framed (source : String) (spans : List Lines) (edits : List LineEdit) (text : String) :
    Prop where
  /-- The edits replace the spans and nothing else. -/
  replaced : runs (edits.filter (!·.isInsertion)) = runsOf spans
  inside : ∀ l ∈ spans, 1 ≤ l.first ∧ l.first ≤ l.last ∧ l.last ≤ (Text.sourceLines source).length
  disjoint : spans.Pairwise fun k l => k.last < l.first ∨ l.last < k.first
  outside : ∀ i ∈ edits, i.isInsertion → ∀ l ∈ spans, ¬(l.first < i.first ∧ i.first ≤ l.last)
  kept : ∀ k, edits.any (·.covers k) = spans.any fun l => decide (l.first ≤ k) && decide (k ≤ l.last)
  lines : String.join (Text.sourceLines source) = source
  closed : closedLines source (newlineOf source.toList) = Text.sourceLines source ∨
    ∃ lines last, Text.sourceLines source = lines ++ [last] ∧ endsWithBreak last = false ∧
      closedLines source (newlineOf source.toList) = lines ++ [last ++ newlineOf source.toList]
  spliced : text = String.join (spliced (newlineOf source.toList) edits 1
    (closedLines source (newlineOf source.toList)))

/-- An insertion in front of a line that no span reaches across. -/
structure Inserts (n : Nat) (spans : List Lines) (i : LineEdit) : Prop where
  insertion : i.last = i.first - 1
  below : 1 ≤ i.first
  above : i.first ≤ n + 1
  outside : ∀ l ∈ spans, ¬(l.first < i.first ∧ i.first ≤ l.last)

section Framed

variable {source : String} {spans : List Lines} {rebuilt : List LineEdit}

theorem exists_span (replaces : runs rebuilt = runsOf spans) {e : LineEdit} (member : e ∈ rebuilt) :
    ∃ l ∈ spans, e.first = l.first ∧ e.last = l.last := by
  have inRuns : (e.first, e.last) ∈ runs rebuilt := List.mem_map_of_mem member
  rw [replaces] at inRuns
  obtain ⟨l, inSpans, same⟩ := List.mem_map.mp inRuns
  obtain ⟨first, last⟩ := Prod.mk.inj same
  exact ⟨l, inSpans, first.symm, last.symm⟩

/-- Edits that replace spans, between insertions. -/
theorem framed_of (front back : List LineEdit) (replaces : runs rebuilt = runsOf spans)
    (inside : ∀ l ∈ spans, 1 ≤ l.first ∧ l.first ≤ l.last ∧
      l.last ≤ (Text.sourceLines source).length)
    (disjoint : spans.Pairwise fun k l => k.last < l.first ∨ l.last < k.first)
    (inserts : ∀ i ∈ front ++ back, Inserts (Text.sourceLines source).length spans i) :
    Framed source spans (front ++ rebuilt ++ back) (applyEdits source (front ++ rebuilt ++ back)) := by
  have place (e : LineEdit) (member : e ∈ rebuilt) : ∃ l ∈ spans, e.first = l.first ∧
      e.last = l.last := exists_span replaces member
  have replacement : ∀ e ∈ rebuilt, e.isInsertion = false := by
    intro e member
    obtain ⟨l, inSpans, first, last⟩ := place e member
    have bounds := inside l inSpans
    simp only [LineEdit.isInsertion, decide_eq_false_iff_not]
    omega
  have insertion : ∀ i ∈ front ++ back, i.isInsertion = true := by
    intro i member
    have before := (inserts i member).insertion
    simp only [LineEdit.isInsertion, decide_eq_true_eq]
    omega
  have sides (e : LineEdit) (member : e ∈ front ++ rebuilt ++ back) :
      e ∈ rebuilt ∨ e ∈ front ++ back := by
    simp only [List.mem_append] at member ⊢
    tauto
  have filtered : (front ++ rebuilt ++ back).filter (!·.isInsertion) = rebuilt := by
    have none (es : List LineEdit) (part : es ⊆ front ++ back) :
        es.filter (!·.isInsertion) = [] :=
      List.filter_eq_nil_iff.mpr fun e member => by simp [insertion e (part member)]
    have all : rebuilt.filter (!·.isInsertion) = rebuilt :=
      List.filter_eq_self.mpr fun e member => by simp [replacement e member]
    rw [List.filter_append, List.filter_append, none front (List.subset_append_left _ _),
      none back (List.subset_append_right _ _), all, List.nil_append, List.append_nil]
  have apart : rebuilt.Pairwise fun e f => e.last < f.first ∨ f.last < e.first := by
    have inRuns : (runsOf spans).Pairwise fun p q => p.2 < q.1 ∨ q.2 < p.1 :=
      List.pairwise_map.mpr (disjoint.imp fun either => by dsimp only; omega)
    rw [← replaces] at inRuns
    exact List.pairwise_map.mp inRuns
  have outside : ∀ i ∈ front ++ rebuilt ++ back, i.isInsertion → ∀ l ∈ spans,
      ¬(l.first < i.first ∧ i.first ≤ l.last) := by
    intro i member inserted
    rcases sides i member with member | member
    · simp [replacement i member] at inserted
    · exact (inserts i member).outside
  have fit : Fit (Text.sourceLines source).length (front ++ rebuilt ++ back) := by
    refine ⟨fun e member => ?_, by rwa [filtered], fun i member inserted e replaced kind => ?_⟩
    · rcases sides e member with member | member
      · obtain ⟨l, inSpans, first, last⟩ := place e member
        have bounds := inside l inSpans
        rw [replacement e member, if_neg (by decide)]
        omega
      · rw [insertion e member, if_pos rfl]
        exact ⟨(inserts e member).below, (inserts e member).above⟩
    · rcases sides e replaced with replaced | inserted'
      · obtain ⟨l, inSpans, first, last⟩ := place e replaced
        rw [first, last]
        exact outside i member inserted l inSpans
      · exact absurd (insertion e inserted') kind
  have kept (k : Int) : (front ++ rebuilt ++ back).any (·.covers k) =
      spans.any fun l => decide (l.first ≤ k) && decide (k ≤ l.last) := by
    have none (es : List LineEdit) (part : es ⊆ front ++ back) : es.any (·.covers k) = false := by
      refine List.any_eq_false.mpr fun e member => ?_
      have before := (inserts e (part member)).insertion
      simp only [LineEdit.covers, Bool.and_eq_true, decide_eq_true_eq, not_and]
      omega
    calc (front ++ rebuilt ++ back).any (·.covers k)
      _ = rebuilt.any (·.covers k) := by
        rw [List.any_append, List.any_append, none front (List.subset_append_left _ _),
          none back (List.subset_append_right _ _), Bool.false_or, Bool.or_false]
      _ = (runs rebuilt).any fun p => decide (p.1 ≤ k) && decide (k ≤ p.2) := by
        rw [runs, List.any_map]
        rfl
      _ = spans.any fun l => decide (l.first ≤ k) && decide (k ≤ l.last) := by
        rw [replaces, runsOf, List.any_map]
        rfl
  refine ⟨by rw [filtered, replaces], inside, disjoint, outside, kept, join_sourceLines source,
    closedLines_cases source _, ?_⟩
  exact applyEdits_eq_spliced (by rwa [length_closedLines])

end Framed

/-! ### The edits of a module -/

variable {a : Analysis} {m : Module} {plan : UnitPlan} (setting : Setting)

/-- The rebuilt routines of a module have definitions that its index holds, with their numbers. -/
theorem getElem?_indexed (sound : m.Sound) (planned : Planned a m plan) {r : RoutinePlan}
    (rebuilt : r ∈ plan.routines) :
    (indexed m.unit.body)[r.definition.routine.ordinal]? =
      some (r.definition.routine.owner, r.definition.statement) := by
  rw [← sound.written, List.getElem?_map, planned.numbered r rebuilt]
  rfl

/-- Different routines of a module have their definitions on different lines. -/
theorem spans_disjoint (sound : m.Sound) (planned : Planned a m plan) :
    ((setting.rebuilt plan).map spanOf).Pairwise fun k l => k.last < l.first ∨ l.last < k.first := by
  obtain ⟨lie, nested⟩ := lie_of_parseModule sound.parsed
  have ordered := List.pairwise_iff_getElem.mp (pairwise_indexed lie nested)
  have numbers (r : RoutinePlan) (member : r ∈ plan.routines) :=
    List.getElem?_eq_some_iff.mp (getElem?_indexed sound planned member)
  have distinct := List.pairwise_map.mp planned.distinct
  refine List.pairwise_map.mpr (List.Pairwise.sublist List.filter_sublist ?_)
  refine distinct.imp_of_mem fun {r s} inPlan inPlan' different => ?_
  obtain ⟨inside, found⟩ := numbers r inPlan
  obtain ⟨inside', found'⟩ := numbers s inPlan'
  rcases Nat.lt_trichotomy r.definition.routine.ordinal s.definition.routine.ordinal with
    before | same | behind
  · have apart := ordered _ _ inside inside' before
    rw [found, found'] at apart
    exact .inl apart
  · have both := (planned.numbered r inPlan).symm.trans (same ▸ planned.numbered s inPlan')
    exact absurd (congrArg Definition.routine (Option.some.inj both)) different
  · have apart := ordered _ _ inside' inside behind
    rw [found, found'] at apart
    exact .inr apart

theorem mem_indexed_of_span (sound : m.Sound) (planned : Planned a m plan) {l : Lines}
    (member : l ∈ (setting.rebuilt plan).map spanOf) :
    ∃ x ∈ indexed m.unit.body, l = ⟨firstLine x.2, x.2.lines.last⟩ := by
  obtain ⟨r, rebuilt, rfl⟩ := List.mem_map.mp member
  have found := getElem?_indexed sound planned (List.mem_of_mem_filter rebuilt)
  exact ⟨_, List.mem_of_getElem? found, rfl⟩

theorem inserts_of_slot {spans : List Lines} {line : Nat} (slot : Slot last body line)
    (defined : ∀ l ∈ spans, ∃ x ∈ indexed body, l = ⟨firstLine x.2, x.2.lines.last⟩)
    (lines : List String) : Inserts last spans (.insertAt line lines) := by
  have below := slot.below
  have above := slot.above
  refine ⟨rfl, ?_, ?_, fun l member => ?_⟩
  · dsimp only [LineEdit.insertAt]
    omega
  · dsimp only [LineEdit.insertAt]
    omega
  · obtain ⟨x, held, rfl⟩ := defined l member
    have clear := slot.clear x held
    dsimp only [LineEdit.insertAt]
    omega

theorem slot_importEdit (lie : Lie 1 last body) (nested : ∀ s ∈ body, Nested s) :
    Slot last body (lineBehind body isFutureImport) := by
  refine slot_lineBehind lie nested fun s passed => ?_
  cases s <;> first | rfl | cases passed

/-- The probes are declared in front of a statement of their class, or else behind the imports of the
module, one on each line. -/
theorem fieldEdit_cases (unit : SourceUnit) (lines : List String) :
    ∃ (line : Nat) (indentation : String), setting.fieldEdit unit lines = .insertAt line
        (setting.fieldLines.map (indentation ++ ·) ++ [""]) ∧
      ((∃ lines name bases keywords inner decorators,
          .classDef lines name bases keywords inner decorators ∈ unit.body ∧
            setting.registry.home.owner = some name ∧
            ∃ s, Setting.fieldAnchor? inner = some s ∧ line = firstLine s) ∨
        line = lineBehind unit.body isImport) := by
  unfold Setting.fieldEdit
  dsimp only
  split
  · rename_i anchor found
    refine ⟨_, _, rfl, .inl ?_⟩
    obtain ⟨inner, home, found⟩ := Option.bind_eq_some_iff.mp found
    obtain ⟨s, member, home⟩ := List.exists_of_findSome?_eq_some home
    split at home
    · split at home
      · rename_i named
        obtain rfl := Option.some.inj home
        exact ⟨_, _, _, _, _, _, member, (beq_iff_eq.mp named).symm, anchor, found, rfl⟩
      · cases home
    · cases home
  · exact ⟨_, "", by simp, .inr rfl⟩

theorem slot_fieldEdit {n : Nat} {unit : SourceUnit} (lie : Lie 1 n unit.body)
    (nested : ∀ s ∈ unit.body, Nested s) (lines : List String) :
    ∃ (line : Nat) (made : List String), setting.fieldEdit unit lines = .insertAt line made ∧
      Slot n unit.body line := by
  obtain ⟨line, indentation, field, inClass | behind⟩ := fieldEdit_cases setting unit lines
  · obtain ⟨_, _, _, _, _, _, member, -, s, found, rfl⟩ := inClass
    exact ⟨_, _, field, slot_firstLine_of_class lie nested member (mem_of_fieldAnchor? found)⟩
  · subst behind
    refine ⟨_, _, field, slot_lineBehind lie nested fun s passed => ?_⟩
    cases s <;> first | rfl | cases passed

/-- The edits of a module replace the definitions that are rebuilt and insert lines. -/
theorem framed_of_unitEdits {setting : Setting} {profile : Profile} {registry : Registry} (of : a.Of profile)
    (planned : plan ∈ plansOf a registry) {edits : List LineEdit}
    (success : (setting.unitEdits plan).2 = .ok edits) :
    Framed plan.unit.source ((setting.rebuilt plan).map spanOf) edits
      (applyEdits plan.unit.source edits) := by
  obtain ⟨m, planned⟩ := planned_of_mem of planned
  have sound := of.known.sound_of_mem planned.inProject
  obtain ⟨lie, nested⟩ := lie_of_parseModule sound.parsed
  have inside : ∀ l ∈ (setting.rebuilt plan).map spanOf,
      1 ≤ l.first ∧ l.first ≤ l.last ∧ l.last ≤ (Text.sourceLines m.unit.source).length := by
    intro l member
    obtain ⟨x, held, rfl⟩ := mem_indexed_of_span setting sound planned member
    exact bounds_of_mem_indexed lie nested held
  have disjoint := spans_disjoint setting sound planned
  have defined := fun l => mem_indexed_of_span setting (l := l) sound planned
  obtain ⟨rebuilt, built, rfl⟩ := unitEdits_eq_ok success
  have replaces := runs_of_rebuildRoutines built
  rw [planned.unit]
  split
  · obtain ⟨line, made, field, slot⟩ := slot_fieldEdit setting lie nested
      ((Text.sourceLines m.unit.source).map Text.withoutBreak)
    refine framed_of [_] [_] replaces inside disjoint ?_
    refine List.forall_mem_cons.mpr ⟨inserts_of_slot (slot_importEdit lie nested) defined _, ?_⟩
    refine List.forall_mem_singleton.mpr ?_
    rw [field]
    exact inserts_of_slot slot defined _
  · have framed := framed_of [] [] replaces inside disjoint (by simp)
    simpa using framed

end ProbeWeave.Weaving

namespace ProbeWeave.Instrumentation

open Weaving Probe

/-- Every module that changes keeps its lines outside of the rebuilt definitions: its edits replace
the disjoint spans of these definitions and insert lines outside of them, and its new text is made of
the other lines, in order, and of what the edits bring. -/
theorem units_framed {w : Files.World} {profile : Profile} {a : Analysis} {registry : Registry}
    {tree : Files.FileTree} {units : List WovenUnit}
    (analysed : (Analysis.ofProfile w profile).1 = .ok a)
    (success : (run a registry profile tree).units = .ok units) {u : WovenUnit}
    (member : u ∈ units) :
    ∃ plan ∈ plansOf a registry, ∃ edits, u.unit = plan.unit ∧
      (settingOf a registry profile).unitEdits plan = (u.events, .ok edits) ∧
      Framed u.unit.source (((settingOf a registry profile).rebuilt plan).map spanOf) edits
        u.source := by
  obtain ⟨plan, planned, woven⟩ := mem_units success member
  obtain ⟨edits, made, unit, text⟩ := weaveUnit_eq_ok woven
  have framed := framed_of_unitEdits (Analysis.of_ofProfile analysed) planned
    (congrArg Prod.snd made)
  exact ⟨plan, planned, edits, unit, made, by rwa [unit, text]⟩

end ProbeWeave.Instrumentation

/-! The sample project: both modules change. -/

namespace ProbeWeave.Weaving.TwoModules

open Syntax ProbeWeave.Graph Probe Project

/-- A call of a function between the start and the stop of its probe. -/
def timedCall (line : Nat) (name probe : String) : Marked :=
  .mk (callLine line name) ⟨some ⟨.standalone, probe⟩, [], (callLine line name).slot?⟩ []

def runPlan : RoutinePlan :=
  ⟨⟨run, .functionDef ⟨4, 5⟩ false "run" default [callLine 5 "f"] [] none⟩,
    [timedCall 5 "f" "probe1_f"]⟩

def fPlan : RoutinePlan :=
  ⟨⟨f, .functionDef ⟨1, 2⟩ false "f" default [callLine 2 "g"] [] none⟩,
    [timedCall 2 "g" "probe2_g"]⟩

def gPlan : RoutinePlan :=
  ⟨⟨g, .functionDef ⟨5, 6⟩ false "g" default [.pass ⟨6, 6⟩] [] none⟩,
    [.mk (.pass ⟨6, 6⟩) ⟨none, [], none⟩ []]⟩

theorem checkCalls_analysis : checkCalls analysis = .ok () := by cbv

theorem mapGraph_analysis : mapGraph analysis analysis.registry =
    ([⟨callerUnit, [runPlan], .mapping⟩, ⟨calledUnit, [fPlan, gPlan], .mapping⟩],
      analysis.registry) := by
  cbv

def setting : Setting :=
  ⟨analysis, analysis.registry, false, profile.reportVariable, none⟩

theorem settingOf_analysis :
    Instrumentation.settingOf analysis analysis.registry profile = setting := by
  rw [Instrumentation.settingOf, mapGraph_analysis]
  rfl

def runEdit : LineEdit :=
  ⟨4, 5, ["def run():", "    probe1_f.start()", "    f()", "    probe1_f.stop()"]⟩

def fEdit : LineEdit :=
  ⟨1, 2, ["def f():", "    import a as _timetrack_home", "    _timetrack_home.probe2_g.start()",
    "    g()", "    _timetrack_home.probe2_g.stop()"]⟩

set_option maxRecDepth 10000 in
theorem unitEdits_called : setting.unitEdits ⟨calledUnit, [fPlan, gPlan], .applying⟩ =
    ([⟨.call, "f -> probe2_g", some calledUnit.path⟩], .ok [fEdit]) := by
  have edit (lines : List String) (flush : indentationOf lines fPlan.definition.statement = "") :
      Setting.definitionEdit lines fPlan.definition.statement
        (withBody fPlan.definition.statement (setting.rebuildBody calledUnit fPlan).1) = .ok fEdit :=
    definitionEdit_eq_ok (text?_eq_ok (by cbv) rfl) (by rw [flush]; rfl)
  have again : setting.rebuilt ⟨calledUnit, [fPlan, gPlan], .applying⟩ = [fPlan] := by rfl
  simp only [Setting.unitEdits, again, Setting.rebuildRoutines, Setting.rebuildRoutine]
  rw [edit]
  · rfl
  · cbv

set_option maxRecDepth 10000 in
theorem unitEdits_caller : setting.unitEdits ⟨callerUnit, [runPlan], .applying⟩ =
    ([⟨.call, "run -> probe1_f", some callerUnit.path⟩, ⟨.fields, "a", some callerUnit.path⟩],
      .ok [⟨1, 0, ["from timetrack_cli.stopwatch import Stopwatch"]⟩, runEdit,
        ⟨4, 3, ["probe1_f = Stopwatch()", "probe2_g = Stopwatch()", ""]⟩]) := by
  have edit (lines : List String) (flush : indentationOf lines runPlan.definition.statement = "") :
      Setting.definitionEdit lines runPlan.definition.statement
        (withBody runPlan.definition.statement (setting.rebuildBody callerUnit runPlan).1) =
          .ok runEdit :=
    definitionEdit_eq_ok (text?_eq_ok (by cbv) rfl) (by rw [flush]; rfl)
  have again : setting.rebuilt ⟨callerUnit, [runPlan], .applying⟩ = [runPlan] := by rfl
  simp only [Setting.unitEdits, again, Setting.rebuildRoutines, Setting.rebuildRoutine]
  rw [edit]
  · rfl
  · cbv

def wovenCaller : WovenUnit where
  unit := callerUnit
  source := "from timetrack_cli.stopwatch import Stopwatch\nfrom b import f\n\n\n" ++
    "probe1_f = Stopwatch()\nprobe2_g = Stopwatch()\n\n" ++
    "def run():\n    probe1_f.start()\n    f()\n    probe1_f.stop()\n"
  events := [⟨.call, "run -> probe1_f", some callerUnit.path⟩,
    ⟨.fields, "a", some callerUnit.path⟩]

def wovenCalled : WovenUnit where
  unit := calledUnit
  source := "def f():\n    import a as _timetrack_home\n    _timetrack_home.probe2_g.start()\n" ++
    "    g()\n    _timetrack_home.probe2_g.stop()\n\n\ndef g():\n    pass\n"
  events := [⟨.call, "f -> probe2_g", some calledUnit.path⟩]

set_option maxRecDepth 10000 in
theorem weaveUnit_called : setting.weaveUnit ⟨calledUnit, [fPlan, gPlan], .applying⟩ =
    (wovenCalled.events, .ok (some wovenCalled)) := by
  have text : applyEdits calledUnit.source [fEdit] = wovenCalled.source := by cbv
  have changed : (wovenCalled.source == calledUnit.source) = false := by cbv
  simp only [Setting.weaveUnit, unitEdits_called, text, changed]
  rfl

set_option maxRecDepth 10000 in
theorem weaveUnit_caller : setting.weaveUnit ⟨callerUnit, [runPlan], .applying⟩ =
    (wovenCaller.events, .ok (some wovenCaller)) := by
  have text : applyEdits callerUnit.source [⟨1, 0, ["from timetrack_cli.stopwatch import Stopwatch"]⟩, runEdit,
        ⟨4, 3, ["probe1_f = Stopwatch()", "probe2_g = Stopwatch()", ""]⟩] = wovenCaller.source := by cbv
  have changed : (wovenCaller.source == callerUnit.source) = false := by cbv
  simp only [Setting.weaveUnit, unitEdits_caller, text, changed]
  rfl

theorem plansOf_analysis : plansOf analysis analysis.registry =
    [⟨callerUnit, [runPlan], .applying⟩, ⟨calledUnit, [fPlan, gPlan], .applying⟩] := by
  rw [plansOf, mapGraph_analysis]
  rfl

theorem units_twoModules : (Instrumentation.run analysis analysis.registry profile tree).units =
    .ok [wovenCaller, wovenCalled] := by
  have there : tree.isFile callerUnit.path.names = true := rfl
  have there' : tree.isFile calledUnit.path.names = true := rfl
  rw [Instrumentation.units_run (by cbv) (by decide) checkCalls_analysis, plansOf_analysis,
    settingOf_analysis]
  simp only [Instrumentation.applyPlans, Instrumentation.applyPlan, weaveUnit_caller,
    weaveUnit_called, there, there']
  rfl

theorem units_framed_twoModules :
    (Analysis.ofProfile world profile).1 = .ok analysis ∧
      (Instrumentation.run analysis analysis.registry profile tree).units =
        .ok [wovenCaller, wovenCalled] ∧
      ∃ plan ∈ plansOf analysis analysis.registry, ∃ edits, calledUnit = plan.unit ∧
        Framed calledUnit.source ((setting.rebuilt plan).map spanOf) edits wovenCalled.source := by
  obtain ⟨plan, planned, edits, unit, -, framed⟩ := Instrumentation.units_framed ofProfile_world
    units_twoModules (u := wovenCalled) (by simp)
  exact ⟨ofProfile_world, units_twoModules, plan, planned, edits, unit, settingOf_analysis ▸ framed⟩

end ProbeWeave.Weaving.TwoModules
