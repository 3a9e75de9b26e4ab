import ProbeWeave.Proofs.Syntax.Layout

/-! # Where the statements of a class begin

The block of a class is either the rest of a line, with simple statements only, or it begins on a later
line. So in a class with a definition all statements stand below the line that the class begins on.
-/

namespace ProbeWeave.Syntax

open Reading Cursor Weaving

/-- Whether the statements of a class that holds a definition stand below the line that the class begins
on. -/
def Indented : Stmt → Prop
  | .classDef lines _ _ _ body _ =>
    (∃ s ∈ body, s.opensScope = true) → ∀ s ∈ body, lines.first < firstLine s
  | _ => True

theorem indented_of_plain {s : Stmt} (plain : s.opensScope = false) : Indented s := by
  cases s with
  | classDef => cases plain
  | _ => trivial

variable {last line lastLine first : Nat}

namespace StatementRules

variable {inner : Inner} {statement : Reading (List Stmt)}

theorem makes_spanning {P : Stmt → Prop} {f : Lines → Stmt} (holds : ∀ lines, P (f lines)) :
    Makes P (spanning first f) :=
  Makes.after fun _ => makes_pure (holds _)

/-! ### Statements other than classes -/

theorem indented_branch (n : Nat) : Makes Indented (branch inner statement first n) := by
  cases n with
  | zero => exact ensures_fail
  | succ n =>
    refine Makes.after fun test => Makes.after fun body => Makes.after fun p => ?_
    refine Makes.after fun again => Ensures.ite ?_ ?_
    · exact Makes.after fun otherwise => makes_spanning fun _ => trivial
    · exact Makes.after fun otherwise => makes_spanning fun _ => trivial

theorem indented_forLoop (isAsync : Bool) :
    Makes Indented (forLoop inner statement first isAsync) := by
  refine Makes.after fun target => Makes.after fun _ => Makes.after fun source => ?_
  exact Makes.after fun body => Makes.after fun otherwise => makes_spanning fun _ => trivial

theorem indented_withBlock (isAsync : Bool) :
    Makes Indented (withBlock inner statement first isAsync) := by
  refine Makes.after fun parenthesized => Ensures.ite ?_ ?_
  · exact Makes.after fun items => Makes.after fun body => makes_spanning fun _ => trivial
  · exact Makes.after fun items => Makes.after fun body => makes_spanning fun _ => trivial

theorem indented_tryBlock : Makes Indented (tryBlock inner statement first) := by
  have built (isGroup : Bool) (body : List Stmt) (handlers : List (Bool × Handler))
      (otherwise : List Stmt) : Makes Indented (do
        let final ← optionalBlock inner statement "finally"
        if handlers.isEmpty && final.isEmpty then fail
        spanning first (.tryBlock · isGroup body (handlers.map (·.2)) otherwise final)) :=
    Makes.after fun final => Ensures.ite ensures_fail_bind (makes_spanning fun _ => trivial)
  refine Makes.after fun body => Makes.after fun handlers => Ensures.ite ensures_fail_bind ?_
  refine Ensures.ite ?_ ?_
  · exact Makes.after fun otherwise => built _ body handlers otherwise
  · exact Makes.after fun otherwise => built _ body handlers otherwise

theorem indented_matchBlock (subject : Expr) :
    Makes Indented (matchBlock inner statement first subject) := by
  refine Makes.after fun deeper => Ensures.ite ensures_failWith_bind ?_
  refine Makes.after fun cases => Ensures.ite ensures_fail_bind ?_
  exact Makes.after fun _ => makes_spanning fun _ => trivial

theorem indented_functionDef (isAsync : Bool) (decorators : List Decorator) :
    Makes Indented (functionDef inner statement first isAsync decorators) := by
  refine Makes.after fun _ => Makes.after fun id => Makes.after fun _ => ?_
  refine Makes.after fun parameters => Makes.after fun _ => Makes.after fun annotated => ?_
  refine Ensures.ite ?_ ?_
  · exact Makes.after fun returns => Makes.after fun body => makes_spanning fun _ => trivial
  · exact Makes.after fun returns => Makes.after fun body => makes_spanning fun _ => trivial

/-! ### Classes -/

/-- A block with a definition begins behind the line of its colon. -/
theorem ensures_block_below (verbal : inner.Verbal last) (lays : Lays last statement) :
    Ensures (Ready last line lastLine) (block inner statement) fun body _ =>
      (∃ s ∈ body, s.opensScope = true) → ∀ s ∈ body, lastLine < firstLine s := by
  refine Ensures.expecting (Ready last line lastLine) (fun c ready _ => ready.next) ?_
  refine Ensures.tryTake (Fresh last line lastLine) (fun c ready ends => (ready.newline ends).1) ?_ ?_
  · refine Ensures.tryTake (Fresh last line lastLine) ?_ ?_ ?_
    · intro c fresh indent
      exact (fresh.layout (by rw [indent]; rfl)).1
    · intro c d body fresh success scope s member
      have laid := lays_indented lays _ _ _ c d body fresh.orderly.ready success
      have begins := fresh.begins
      have ended := fresh.ended
      have inside := (laid.lie.inside s member).1
      omega
    · exact ensures_failWith_bind
  · refine (ensures_simpleLine verbal _ line lastLine).mono fun body d ended => ?_
    rintro ⟨s, member, scope⟩
    rw [ended.plain s member] at scope
    cases scope

theorem indented_classDef (verbal : inner.Verbal last) (lays : Lays last statement)
    (decorators : List Decorator) :
    Ensures (Ready last first lastLine) (classDef inner statement first decorators) fun s _ =>
      Indented s := by
  have built (id : String) (read : Inner.ArgumentsRead) :
      Ensures (Ready last first (max first lastLine))
        (do
          let body ← block inner statement
          spanning first (.classDef · id read.arguments read.keywords body decorators))
        fun s _ => Indented s := by
    refine (ensures_block_below verbal lays).bind fun body => ?_
    intro c d s below success
    cases success
    exact fun scope t member => Nat.lt_of_le_of_lt (Nat.le_max_left _ _) (below scope t member)
  refine Ensures.expecting _ (fun c ready word => ready.word (by rw [word]; rfl)) ?_
  refine Ensures.step fun id => ?_
  refine Ensures.step fun parenthesis => Ensures.ite ?_ ?_
  · exact Ensures.step fun read => built id read
  · exact Ensures.step fun read => built id read

theorem indented_definition (verbal : inner.Verbal last) (lays : Lays last statement)
    (decorators : List Decorator) :
    Ensures (Ready last line lastLine) (definition inner statement decorators) fun s _ =>
      Indented s := by
  have function (isAsync : Bool) {P : Cursor → Prop} {first : Nat} :
      Ensures P (functionDef inner statement first isAsync decorators) fun s _ => Indented s :=
    (indented_functionDef isAsync decorators).of fun _ _ => trivial
  refine Ensures.here fun p begun => Ensures.still peek_still fun token => ?_
  split
  · exact indented_classDef verbal lays decorators
  · exact Ensures.step fun _ => function true
  · exact function false

/-! ### Statements of all kinds -/

/-- One statement is what a rule reads. -/
theorem indented_single {P : Cursor → Prop} {rule : Reading Stmt}
    (read : Ensures P rule fun s _ => Indented s) :
    Ensures P (do return [← rule]) fun body _ => ∀ s ∈ body, Indented s :=
  read.bind fun _ => ensures_pure fun _ indented => List.forall_mem_singleton.mpr indented

theorem indented_simpleLine (verbal : inner.Verbal last) (n : Nat) :
    Ensures (Ready last line lastLine) (simpleLine inner n) fun body _ => ∀ s ∈ body, Indented s :=
  (ensures_simpleLine verbal n line lastLine).mono fun _ _ ended s member =>
    indented_of_plain (ended.plain s member)

theorem indented_whole (verbal : inner.Verbal last) (lays : Lays last statement) :
    Ensures (Ready last line lastLine) (whole inner statement) fun body _ =>
      ∀ s ∈ body, Indented s := by
  have defined : Ensures (Ready last line lastLine)
      (do return [← definition inner statement []]) fun body _ => ∀ s ∈ body, Indented s :=
    indented_single (indented_definition verbal lays [])
  have other {P : Cursor → Prop} {rule : Reading (List Stmt)}
      (makes : Makes (fun body => ∀ s ∈ body, Indented s) rule) :
      Ensures P rule fun body _ => ∀ s ∈ body, Indented s :=
    makes.of fun _ _ => trivial
  refine Ensures.still here_still fun p => Ensures.peek fun token => ?_
  split
  · exact other (.after fun _ => indented_single (indented_branch _))
  · exact other (.after fun _ => indented_single (indented_forLoop false))
  · refine other (.after fun _ => .after fun test => .after fun body => .after fun otherwise => ?_)
    exact indented_single (makes_spanning fun _ => trivial)
  · exact other (.after fun _ => indented_single (indented_withBlock false))
  · exact other (.after fun _ => indented_single indented_tryBlock)
  · exact defined.of fun c known => known.1
  · exact defined.of fun c known => known.1
  · refine Ensures.of (W := Ready last line lastLine) ?_ fun c known => known.1
    refine (ensures_collect ensures_decorator _).bind fun decorators => ?_
    exact (indented_single (indented_definition verbal lays decorators)).of fun c known => known.1
  · refine Ensures.still peekSecond_still fun second => ?_
    split
    · exact other (.after fun _ => .after fun _ => indented_single (indented_forLoop true))
    · exact other (.after fun _ => .after fun _ => indented_single (indented_withBlock true))
    · exact defined.of fun c known => known.1
  · have head : Ensures (fun c => Ready last line lastLine c ∧ c.token = .name "match")
        (matchHead inner) fun _ _ => True := fun _ _ _ _ _ => trivial
    refine Ensures.attempt head (fun subject => indented_single (indented_matchBlock subject)) ?_
    exact (indented_simpleLine verbal _).of fun c known => known.1
  · exact (indented_simpleLine verbal _).of fun c known => known.1

end StatementRules

theorem indented_statementWithin {inner : Inner} (verbal : inner.Verbal last) (n : Nat) :
    Ensures (Ready last line lastLine) (statementWithin inner n) fun body _ =>
      ∀ s ∈ body, Indented s := by
  cases n with
  | zero => exact ensures_fail
  | succ n =>
    refine StatementRules.indented_whole verbal fun line lastLine => ?_
    exact lays_statementWithin verbal n line lastLine

theorem indented_statements {inner : Inner} (verbal : inner.Verbal last) (n : Nat) :
    Ensures (Ready last line lastLine) (statements inner n) fun body _ => ∀ s ∈ body, Indented s := by
  induction n with
  | zero => exact ensures_fail
  | succ n ih =>
    refine Ensures.still peek_still fun token => Ensures.ite ?_ ?_
    · exact ensures_pure fun _ _ => by simp
    · intro c e body ready success
      obtain ⟨first, d, read, success⟩ := run_bind.mp success
      obtain ⟨rest, _, others, success⟩ := run_bind.mp success
      obtain ⟨rfl, rfl⟩ := run_pure.mp success
      have behind := ensures_ready c d first ready read
      exact List.forall_mem_append.mpr
        ⟨indented_statementWithin verbal _ c d first ready read, ih d _ rest behind others⟩

/-- In every class of a module that holds a definition, all statements stand below the line that the class
begins on. -/
theorem indented_of_parseModule {source : String} {body : List Stmt}
    (parsed : parseModule source = .ok body) : ∀ s ∈ body, Indented s := by
  rcases read_of_parseModule parsed with rfl | ⟨bound, d, verbal, fresh, read⟩
  · exact nofun
  · exact indented_statements verbal bound _ _ _ fresh.toReady read

end ProbeWeave.Syntax
