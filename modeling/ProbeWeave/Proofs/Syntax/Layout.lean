import ProbeWeave.Proofs.Syntax.Words
import ProbeWeave.Syntax.Grammar.Statement
import ProbeWeave.Weaving.Unit

/-! # How statements lie in a text

Statements that follow one another stand on lines of their text one after the other. Simple ones can
share a line; a definition shares no line with the statements around it, because every compound
statement ends with the end of a line. The statements of a class lie on the lines of the class.
-/

namespace ProbeWeave.Syntax

open Reading Cursor Weaving

/-- Whether one statement stands in front of another: on earlier lines or, if both are simple, at
most on the same one. -/
def Precedes (s t : Stmt) : Prop :=
  s.lines.last ≤ firstLine t ∧ (s.opensScope ∨ t.opensScope → s.lines.last < firstLine t)

/-- Statements that follow one another on lines from a first to a last one. -/
structure Lie (first last : Nat) (body : List Stmt) : Prop where
  inside : ∀ s ∈ body, first ≤ firstLine s ∧ firstLine s ≤ s.lines.last ∧ s.lines.last ≤ last
  ordered : body.Pairwise Precedes

/-- Whether the statements of a class lie on its lines. -/
def Nested : Stmt → Prop
  | .classDef lines _ _ _ body _ => Lie lines.first lines.last body
  | _ => True

theorem firstLine_le (s : Stmt) : firstLine s ≤ s.lines.first := by
  have folded : ∀ (ds : List Decorator) (n : Nat), ds.foldl (fun n d => min n d.line) n ≤ n := by
    intro ds
    induction ds with
    | nil => exact fun n => Nat.le_refl n
    | cons d rest ih =>
      intro n
      have later := ih (min n d.line)
      rw [List.foldl_cons]
      omega
  exact folded _ _

theorem le_firstLine {s : Stmt} {line : Nat} (below : line ≤ s.lines.first)
    (decorated : ∀ d ∈ s.decorators, line ≤ d.line) : line ≤ firstLine s := by
  have folded : ∀ (ds : List Decorator) (n : Nat), line ≤ n → (∀ d ∈ ds, line ≤ d.line) →
      line ≤ ds.foldl (fun n d => min n d.line) n := by
    intro ds
    induction ds with
    | nil => exact fun n start _ => start
    | cons d rest ih =>
      intro n start all
      obtain ⟨here, others⟩ := List.forall_mem_cons.mp all
      exact ih _ (Nat.le_min.mpr ⟨start, here⟩) others
  exact folded _ _ below decorated

theorem lie_nil (first last : Nat) : Lie first last [] :=
  ⟨by simp, .nil⟩

theorem Lie.append {first middle last : Nat} {xs ys : List Stmt} (before : Lie first middle xs)
    {next : Nat} (behind : Lie next last ys) (beyond : middle < next) (onward : first ≤ next)
    (grown : middle ≤ last) : Lie first last (xs ++ ys) := by
  refine ⟨fun s member => ?_, List.pairwise_append.mpr ⟨before.ordered, behind.ordered, ?_⟩⟩
  · rcases List.mem_append.mp member with member | member
    · have inside := before.inside s member
      omega
    · have inside := behind.inside s member
      omega
  · intro s inFirst t inSecond
    have ended := (before.inside s inFirst).2.2
    have begun := (behind.inside t inSecond).1
    exact ⟨by omega, fun _ => by omega⟩

variable {last line lastLine : Nat}

/-- What reading statements leaves behind: the beginning of a line, and statements in front of it. -/
structure Ends (last line lastLine : Nat) (body : List Stmt) (d : Cursor) : Prop where
  fresh : d.Fresh last line lastLine
  lie : Lie line d.lastLine body
  nested : ∀ s ∈ body, Nested s

/-- The tokens of the layout do not change where statements end. -/
theorem Ends.layout {body : List Stmt} {c : Cursor} (ends : Ends last line lastLine body c)
    (layout : c.token.isLayout = true) : Ends last line lastLine body c.next := by
  obtain ⟨fresh, same⟩ := ends.fresh.layout layout
  exact ⟨fresh, same ▸ ends.lie, ends.nested⟩

/-- A rule for statements. -/
def Lays (last : Nat) (statement : Reading (List Stmt)) : Prop :=
  ∀ line lastLine, Ensures (Ready last line lastLine) statement (Ends last line lastLine)

/-- Statements behind others. -/
theorem Ends.append {xs ys : List Stmt} {c d : Cursor} (first : Ends last line lastLine xs c)
    (second : Ends last c.line c.lastLine ys d) : Ends last line lastLine (xs ++ ys) d := by
  have began := first.fresh
  have ended := second.fresh
  have onward := began.onward
  have grown := ended.ended
  refine ⟨⟨⟨ended.orderly, ?_, ?_⟩, ended.begins⟩, ?_, ?_⟩
  · exact Nat.le_trans onward ended.onward
  · exact Nat.le_trans began.ended grown
  · exact first.lie.append second.lie began.begins onward grown
  · intro s member
    exact (List.mem_append.mp member).elim (first.nested s) (second.nested s)

namespace StatementRules

variable {inner : Inner}

/-! ### Simple statements -/

/-- Whether a statement without its lines is a simple one. -/
def Plain (f : Lines → Stmt) : Prop :=
  ∀ lines, (f lines).lines = lines ∧ (f lines).opensScope = false

theorem decorators_of_plain {s : Stmt} (plain : s.opensScope = false) : s.decorators = [] := by
  cases s <;> first | rfl | cases plain

theorem nested_of_plain {s : Stmt} (plain : s.opensScope = false) : Nested s := by
  cases s <;> trivial

theorem firstLine_of_plain {s : Stmt} (plain : s.opensScope = false) :
    firstLine s = s.lines.first := by
  rw [firstLine, decorators_of_plain plain, List.foldl_nil]

/-- Whatever a rule makes has a property. -/
def Makes {α : Type} (P : α → Prop) (reading : Reading α) : Prop :=
  Ensures (fun _ => True) reading fun a _ => P a

theorem Makes.after {α β : Type} {P : β → Prop} {reading : Reading α} {next : α → Reading β}
    (makes : ∀ a, Makes P (next a)) : Makes P (reading >>= next) :=
  Ensures.bind (fun _ _ _ _ _ => trivial) makes

theorem makes_pure {α : Type} {P : α → Prop} {a : α} (holds : P a) : Makes P (pure a) :=
  ensures_pure fun _ _ => holds

/-- A rule ends with a statement of some kind. -/
theorem makes_plain {f : Lines → Stmt} (lines : ∀ lines, (f lines).lines = lines)
    (simple : ∀ lines, (f lines).opensScope = false) : Makes Plain (pure f) :=
  makes_pure fun l => ⟨lines l, simple l⟩

theorem makes_assignment (targets : List Expr) (value : Expr) (n : Nat) :
    Makes Plain (assignment inner targets value n) := by
  induction n generalizing targets value with
  | zero => exact ensures_fail
  | succ n ih =>
    refine Makes.after fun more => ?_
    split
    · exact Makes.after fun target => Makes.after fun _ => Makes.after fun next => ih _ _
    · exact makes_plain (fun _ => rfl) fun _ => rfl

theorem makes_expressionStatement : Makes Plain (expressionStatement inner) := by
  unfold expressionStatement
  repeat'
    first
    | exact makes_plain (fun _ => rfl) fun _ => rfl
    | exact makes_assignment _ _ _
    | refine Makes.after fun _ => ?_
    | split

theorem makes_importModules : Makes Plain (importModules inner) := by
  unfold importModules
  repeat'
    first
    | exact makes_plain (fun _ => rfl) fun _ => rfl
    | refine Makes.after fun _ => ?_
    | split

theorem makes_importNames : Makes Plain (importNames inner) := by
  unfold importNames
  repeat'
    first
    | exact makes_plain (fun _ => rfl) fun _ => rfl
    | refine Makes.after fun _ => ?_
    | split

theorem makes_simpleContent : Makes Plain (simpleContent inner) := by
  unfold simpleContent
  repeat'
    first
    | exact makes_plain (fun _ => rfl) fun _ => rfl
    | exact makes_importModules
    | exact makes_importNames
    | exact makes_expressionStatement
    | refine Makes.after fun _ => ?_
    | split

theorem words_simpleContent (verbal : inner.Verbal last) : Words last (simpleContent inner) := by
  refine Words.peek fun token => ?_
  split
  case h_2 => exact (words_expect rfl).bind _
  case h_3 => exact (words_expect rfl).bind _
  case h_12 =>
    exact (Words.after fun _ => (Inner.words_yieldOrStarExpressions verbal).bind) _
  all_goals exact (wordsAt_skip rfl).bind

/-- A simple statement begins and ends on lines in front of the cursor behind it. -/
structure Simple (line : Nat) (s : Stmt) (d : Cursor) : Prop where
  plain : s.opensScope = false
  begun : line ≤ s.lines.first
  upright : s.lines.first ≤ s.lines.last
  ended : s.lines.last ≤ d.lastLine

theorem ensures_simple (verbal : inner.Verbal last) :
    Ensures (Ready last line lastLine) (simple inner) fun s d =>
      d.Ready last line lastLine ∧ Simple line s d := by
  refine Ensures.here fun p onward => ?_
  intro c e s here success
  obtain ⟨f, d, content, success⟩ := run_bind.mp success
  have behind := (words_simpleContent verbal).ensures c d f here content
  have plain := makes_simpleContent c d f trivial content
  cases success
  obtain ⟨lines, simple⟩ := plain ⟨p.line, e.lastLine⟩
  have ended := behind.ended
  have further := behind.onward
  refine ⟨⟨behind.orderly, by omega, by omega⟩, simple, ?_, ?_, ?_⟩
  all_goals
    simp only [lines]
    omega

/-- A token behind a simple statement is passed. -/
theorem Simple.next {s : Stmt} {c : Cursor} (simple : Simple line s c)
    (orderly : c.Orderly last) : Simple line s c.next := by
  have ended := simple.ended
  obtain ⟨-, -, grown, -⟩ := orderly.next
  exact ⟨simple.plain, simple.begun, simple.upright, by omega⟩

/-- What reading the statements of a line leaves behind. -/
structure EndsLine (last line lastLine : Nat) (body : List Stmt) (d : Cursor) : Prop
    extends Ends last line lastLine body d where
  plain : ∀ s ∈ body, s.opensScope = false

/-- A simple statement at the end of its line. -/
theorem Simple.endsLine {s : Stmt} {c : Cursor} (simple : Simple line s c)
    (ready : c.Ready last line lastLine) (ends : c.token = .newline) :
    EndsLine last line lastLine [s] c.next := by
  obtain ⟨fresh, same⟩ := ready.newline ends
  have begun := simple.begun
  have upright := simple.upright
  have ended := simple.ended
  have same := firstLine_of_plain simple.plain
  refine ⟨⟨fresh, ⟨?_, List.pairwise_singleton _ _⟩, ?_⟩, ?_⟩
  all_goals rw [List.forall_mem_singleton]
  · omega
  · exact nested_of_plain simple.plain
  · exact simple.plain

/-- A simple statement in front of others on its line. -/
theorem Simple.cons {s : Stmt} {body : List Stmt} {c d : Cursor} (simple : Simple line s c)
    (ready : c.Ready last line lastLine) (rest : EndsLine last c.line c.lastLine body d) :
    EndsLine last line lastLine (s :: body) d := by
  have begun := simple.begun
  have upright := simple.upright
  have ended := simple.ended
  have same := firstLine_of_plain simple.plain
  have beyond := ready.orderly.lastLine_le_line
  have onward := rest.fresh.onward
  have grown := rest.fresh.ended
  have started := ready.onward
  have before := ready.ended
  refine ⟨⟨⟨⟨rest.fresh.orderly, by omega, by omega⟩, rest.fresh.begins⟩, ⟨?_, ?_⟩, ?_⟩, ?_⟩
  · refine List.forall_mem_cons.mpr ⟨by omega, fun t member => ?_⟩
    have inside := rest.lie.inside t member
    omega
  · refine List.pairwise_cons.mpr ⟨fun t member => ⟨?_, ?_⟩, rest.lie.ordered⟩
    · have inside := (rest.lie.inside t member).1
      omega
    · simp [simple.plain, rest.plain t member]
  · exact List.forall_mem_cons.mpr ⟨nested_of_plain simple.plain, rest.nested⟩
  · exact List.forall_mem_cons.mpr ⟨simple.plain, rest.plain⟩

theorem ensures_simpleLine (verbal : inner.Verbal last) (n : Nat) (line lastLine : Nat) :
    Ensures (Ready last line lastLine) (simpleLine inner n) (EndsLine last line lastLine) := by
  induction n generalizing line lastLine with
  | zero => exact ensures_fail
  | succ n ih =>
    refine (ensures_simple verbal).bind fun s => ?_
    refine Ensures.tryTake (fun c => c.Ready last line lastLine ∧ Simple line s c)
      (fun c before _ => ⟨before.1.next, before.2.next before.1.orderly⟩) ?_ ?_
    · refine Ensures.tryTake (EndsLine last line lastLine [s])
        (fun c before ends => before.2.endsLine before.1 ends) ?_ ?_
      · exact ensures_pure fun c ended => ended
      · intro c e body before success
        obtain ⟨rest, d, read, success⟩ := run_bind.mp success
        obtain ⟨rfl, rfl⟩ := run_pure.mp success
        exact before.2.cons before.1 (ih _ _ c d rest before.1.orderly.ready read)
    · refine Ensures.expecting (EndsLine last line lastLine [s])
        (fun c before ends => before.2.endsLine before.1 ends) ?_
      exact ensures_pure fun c ended => ended

theorem lays_simpleLine (verbal : inner.Verbal last) (n : Nat) : Lays last (simpleLine inner n) :=
  fun line lastLine => (ensures_simpleLine verbal n line lastLine).mono fun _ _ ended => ended.toEnds

/-! ### Blocks -/

variable {statement : Reading (List Stmt)}

theorem lays_indented (lays : Lays last statement) (n : Nat) :
    Lays last (indented statement n) := by
  induction n with
  | zero => exact fun _ _ => ensures_fail
  | succ n ih =>
    intro line lastLine
    refine (lays line lastLine).bind fun first => ?_
    refine Ensures.tryTake (Ends last line lastLine first) ?_ ?_ ?_
    · intro c before dedent
      exact before.layout (by rw [dedent]; rfl)
    · exact ensures_pure fun c ended => ended
    · intro c e body before success
      obtain ⟨rest, d, read, success⟩ := run_bind.mp success
      obtain ⟨rfl, rfl⟩ := run_pure.mp success
      exact before.append (ih _ _ c d rest before.fresh.orderly.ready read)

/-- The statements of a block lie behind its colon. -/
theorem lays_block (verbal : inner.Verbal last) (lays : Lays last statement) :
    Lays last (block inner statement) := by
  intro line lastLine
  refine Ensures.expecting (Ready last line lastLine) (fun c ready _ => ready.next) ?_
  refine Ensures.tryTake (Fresh last line lastLine) (fun c ready ends => (ready.newline ends).1) ?_ ?_
  · refine Ensures.tryTake (Fresh last line lastLine) ?_ ?_ ?_
    · intro c fresh indent
      exact (fresh.layout (by rw [indent]; rfl)).1
    · intro c d body fresh success
      exact lays_indented lays _ line lastLine c d body fresh.toReady success
    · exact ensures_failWith_bind
  · exact lays_simpleLine verbal _ line lastLine

theorem ensures_block (verbal : inner.Verbal last) (lays : Lays last statement) :
    Ensures (Ready last line lastLine) (block inner statement) fun _ => Fresh last line lastLine :=
  (lays_block verbal lays line lastLine).mono fun _ _ ended => ended.fresh

/-- A block that may be missing ends with the end of a line, too. -/
theorem ensures_optionalBlock (verbal : inner.Verbal last) (lays : Lays last statement)
    {word : String} :
    Ensures (Fresh last line lastLine) (optionalBlock inner statement word) fun _ =>
      Fresh last line lastLine := by
  refine Ensures.tryTake (Ready last line lastLine) (fun c fresh _ => fresh.toReady.next) ?_ ?_
  · exact ensures_block verbal lays
  · exact ensures_pure fun _ fresh => fresh

/-! ### Compound statements -/

/-- A compound statement ends with the end of a line. -/
structure Compound (last line lastLine first : Nat) (decorators : List Decorator) (s : Stmt)
    (d : Cursor) : Prop where
  fresh : d.Fresh last line lastLine
  lines : s.lines = ⟨first, d.lastLine⟩
  decorators : s.decorators = decorators
  nested : Nested s

theorem Compound.ends {first : Nat} {decorators : List Decorator} {s : Stmt} {d : Cursor}
    (compound : Compound last first (max first lastLine) first decorators s d)
    (begun : line ≤ first) (decorated : ∀ d ∈ decorators, line ≤ d.line) :
    Ends last line lastLine [s] d := by
  obtain ⟨fresh, lines, rfl, nested⟩ := compound
  have above : firstLine s ≤ first := by simpa [lines] using firstLine_le s
  have below : line ≤ firstLine s := le_firstLine (by simpa [lines] using begun) decorated
  have onward := fresh.onward
  have ended := fresh.ended
  refine ⟨⟨⟨fresh.orderly, by omega, by omega⟩, fresh.begins⟩, ⟨?_, List.pairwise_singleton _ _⟩, ?_⟩
  · rw [List.forall_mem_singleton, lines]
    dsimp only
    omega
  · rwa [List.forall_mem_singleton]

variable {first : Nat}

/-- The lines a compound statement is given once its last block is read. -/
theorem ensures_spanning {f : Lines → Stmt} {decorators : List Decorator}
    (lines : ∀ lines, (f lines).lines = lines)
    (same : ∀ lines, (f lines).decorators = decorators) (nested : ∀ lines, Nested (f lines)) :
    Ensures (Fresh last line lastLine) (spanning first f)
      (Compound last line lastLine first decorators) := by
  intro c d s fresh success
  cases success
  exact ⟨fresh, lines _, same _, nested _⟩

theorem ensures_branch (verbal : inner.Verbal last) (lays : Lays last statement) (n : Nat) :
    Ensures (Ready last line lastLine) (branch inner statement first n)
      (Compound last line lastLine first []) := by
  induction n generalizing first with
  | zero => exact ensures_fail
  | succ n ih =>
    refine Ensures.step fun test => ?_
    refine (ensures_block verbal lays).bind fun body => ?_
    refine Ensures.still here_still fun p => ?_
    refine Ensures.tryTake (Ready last line lastLine) (fun c fresh _ => fresh.toReady.next) ?_ ?_
    · refine (ih.mono fun _ _ compound => compound.fresh).bind fun otherwise => ?_
      exact ensures_spanning (fun _ => rfl) (fun _ => rfl) fun _ => trivial
    · refine (ensures_optionalBlock verbal lays).bind fun otherwise => ?_
      exact ensures_spanning (fun _ => rfl) (fun _ => rfl) fun _ => trivial

theorem ensures_forLoop (verbal : inner.Verbal last) (lays : Lays last statement)
    (isAsync : Bool) :
    Ensures (Ready last line lastLine) (forLoop inner statement first isAsync)
      (Compound last line lastLine first []) := by
  refine Ensures.step fun target => ?_
  refine Ensures.step fun _ => ?_
  refine Ensures.step fun source => ?_
  refine (ensures_block verbal lays).bind fun body => ?_
  refine (ensures_optionalBlock verbal lays).bind fun otherwise => ?_
  exact ensures_spanning (fun _ => rfl) (fun _ => rfl) fun _ => trivial

theorem ensures_withBlock (verbal : inner.Verbal last) (lays : Lays last statement)
    (isAsync : Bool) :
    Ensures (Ready last line lastLine) (withBlock inner statement first isAsync)
      (Compound last line lastLine first []) := by
  have built (items : List WithItem) : Ensures (Ready last line lastLine)
      (do
        let body ← block inner statement
        spanning first (.withBlock · isAsync items body))
      (Compound last line lastLine first []) := by
    refine (ensures_block verbal lays).bind fun body => ?_
    exact ensures_spanning (fun _ => rfl) (fun _ => rfl) fun _ => trivial
  refine Ensures.step fun parenthesized => Ensures.ite ?_ ?_
  · exact Ensures.step built
  · exact Ensures.step built

/-- A clause of a `try` statement ends with the end of a line. -/
theorem ensures_handler (verbal : inner.Verbal last) (lays : Lays last statement) :
    Ensures (Fresh last line lastLine) (handler inner statement) fun _ =>
      Fresh last line lastLine := by
  refine Ensures.tryTake (Ready last line lastLine) (fun c fresh _ => fresh.toReady.next) ?_ ?_
  · refine Ensures.step fun isGroup => Ensures.step fun colon => Ensures.ite ?_ ?_
    · refine (ensures_block verbal lays).bind fun body => ?_
      exact ensures_pure fun _ fresh => fresh
    · refine Ensures.step fun type => Ensures.step fun id => ?_
      refine (ensures_block verbal lays).bind fun body => ?_
      exact ensures_pure fun _ fresh => fresh
  · exact ensures_pure fun _ fresh => fresh

theorem ensures_tryBlock (verbal : inner.Verbal last) (lays : Lays last statement) :
    Ensures (Ready last line lastLine) (tryBlock inner statement first)
      (Compound last line lastLine first []) := by
  refine (ensures_block verbal lays).bind fun body => ?_
  refine (ensures_collect_keeps (ensures_handler verbal lays) _).bind fun handlers => ?_
  refine Ensures.ite ensures_fail_bind ?_
  have built (otherwise : List Stmt) : Ensures (Fresh last line lastLine)
      (do
        let final ← optionalBlock inner statement "finally"
        if handlers.isEmpty && final.isEmpty then fail
        spanning first (.tryBlock · (handlers.any (·.1)) body (handlers.map (·.2)) otherwise final))
      (Compound last line lastLine first []) := by
    refine (ensures_optionalBlock verbal lays).bind fun final => ?_
    refine Ensures.ite ensures_fail_bind ?_
    exact ensures_spanning (fun _ => rfl) (fun _ => rfl) fun _ => trivial
  refine Ensures.ite ?_ ?_
  · exact (ensures_pure fun _ fresh => fresh).bind built
  · exact (ensures_optionalBlock verbal lays).bind built

theorem ensures_functionDef (verbal : inner.Verbal last) (lays : Lays last statement)
    (isAsync : Bool) (decorators : List Decorator) :
    Ensures (Ready last first lastLine) (functionDef inner statement first isAsync decorators)
      (Compound last first (max first lastLine) first decorators) := by
  have built (id : String) (parameters : Parameters) (returns : Option Expr) :
      Ensures (Ready last first (max first lastLine))
        (do
          let body ← block inner statement
          spanning first (.functionDef · isAsync id parameters body decorators returns))
        (Compound last first (max first lastLine) first decorators) := by
    refine (ensures_block verbal lays).bind fun body => ?_
    exact ensures_spanning (fun _ => rfl) (fun _ => rfl) fun _ => trivial
  refine Ensures.expecting _ (fun c ready word => ready.word (by rw [word]; rfl)) ?_
  refine Ensures.step fun id => Ensures.step fun _ => ?_
  refine Ensures.step fun parameters => Ensures.step fun _ => ?_
  refine Ensures.step fun annotated => Ensures.ite ?_ ?_
  · exact Ensures.step fun returns => built id parameters returns
  · exact Ensures.step fun returns => built id parameters returns

/-- The statements of a class lie behind its first line. -/
theorem ensures_classDef (verbal : inner.Verbal last) (lays : Lays last statement)
    (decorators : List Decorator) :
    Ensures (Ready last first lastLine) (classDef inner statement first decorators)
      (Compound last first (max first lastLine) first decorators) := by
  have built (id : String) (read : Inner.ArgumentsRead) :
      Ensures (Ready last first (max first lastLine))
        (do
          let body ← block inner statement
          spanning first (.classDef · id read.arguments read.keywords body decorators))
        (Compound last first (max first lastLine) first decorators) := by
    refine (lays_block verbal lays first _).bind fun body => ?_
    intro c d s ended success
    cases success
    exact ⟨ended.fresh, rfl, rfl, ended.lie⟩
  refine Ensures.expecting _ (fun c ready word => ready.word (by rw [word]; rfl)) ?_
  refine Ensures.step fun id => ?_
  refine Ensures.step fun parenthesis => Ensures.ite ?_ ?_
  · exact Ensures.step fun read => built id read
  · exact Ensures.step fun read => built id read

/-! ### Decorators and definitions -/

/-- The lines that the tokens of an expression begin on bound the line of the expression. -/
theorem le_startLine {bound : Nat} (e : Expr) (n line : Nat) (lexemes : List Lexeme)
    (begun : bound ≤ line) (behind : ∀ x ∈ lexemes, bound ≤ x.start.line) :
    bound ≤ startLine line e n lexemes := by
  induction n generalizing line lexemes with
  | zero => exact begun
  | succ n ih =>
    have onward : bound ≤ lexemes.head?.elim line (·.start.line) := by
      cases lexemes with
      | nil => exact begun
      | cons x rest => exact behind x (by simp)
    have choice (c : Bool) (k m : Nat) (left : bound ≤ k) (right : bound ≤ m) :
        bound ≤ if c = true then k else m := by
      cases c
      · exact right
      · exact left
    unfold startLine
    split
    · rename_i x y content
      refine choice _ _ _ (ih _ _ onward fun z member => ?_) onward
      exact behind z (List.mem_cons_of_mem _ (List.dropLast_subset _ member))
    · exact onward

theorem ensures_decorator :
    Ensures (Ready last line lastLine) (decorator inner) fun found c =>
      c.Ready last line lastLine ∧ ∀ d ∈ found, line ≤ d.line := by
  refine Ensures.tryTake (Ready last line lastLine) (fun c ready _ => ready.next) ?_ ?_
  · intro c d found ready success
    have onward := ready.onward
    have started := ready.orderly.line_le_start
    obtain ⟨orderly, further, grown⟩ := ready.orderly.leads (Reading.forward _ success)
    obtain ⟨p, _, here, success⟩ := run_bind.mp success
    cases here
    obtain ⟨_, _, seen, success⟩ := run_bind.mp success
    cases seen
    obtain ⟨e, c₂, expression, success⟩ := run_bind.mp success
    obtain ⟨_, _, seen, success⟩ := run_bind.mp success
    cases seen
    obtain ⟨_, c₃, ends, success⟩ := run_bind.mp success
    obtain ⟨rfl, rfl⟩ := run_pure.mp success
    refine ⟨⟨orderly, by omega, Nat.le_trans ready.ended grown⟩, ?_⟩
    rintro d ⟨⟩
    refine le_startLine e _ _ _ onward fun x member => ?_
    exact Nat.le_trans onward (started x (List.mem_of_mem_take member))
  · exact ensures_pure fun _ ready => ⟨ready, by simp⟩

/-- A definition begins behind its decorators. -/
theorem ensures_definition (verbal : inner.Verbal last) (lays : Lays last statement)
    {decorators : List Decorator} (decorated : ∀ d ∈ decorators, line ≤ d.line) :
    Ensures (Ready last line lastLine) (definition inner statement decorators) fun s =>
      Ends last line lastLine [s] := by
  refine Ensures.here fun p begun => Ensures.still peek_still fun token => ?_
  split
  · exact (ensures_classDef verbal lays decorators).mono fun _ _ compound =>
      compound.ends begun decorated
  · refine Ensures.step fun _ => ?_
    exact (ensures_functionDef verbal lays true decorators).mono fun _ _ compound =>
      compound.ends begun decorated
  · exact (ensures_functionDef verbal lays false decorators).mono fun _ _ compound =>
      compound.ends begun decorated

theorem ensures_matchHead {token : Token} (word : token.isWord = true) :
    Ensures (fun c => c.Ready last line lastLine ∧ c.token = token) (matchHead inner) fun _ =>
      Fresh last line (max line lastLine) := by
  have ends (subject : Expr) : Ensures (Ready last line (max line lastLine))
      (do
        expectOperator ":"
        expect .newline
        return subject)
      fun _ => Fresh last line (max line lastLine) := by
    refine Ensures.step fun _ => ?_
    refine Ensures.expecting _ (fun c ready ends => (ready.newline ends).1) ?_
    exact ensures_pure fun _ fresh => fresh
  refine Ensures.word word ?_
  refine Ensures.step fun opening => Ensures.step fun comma => Ensures.ite ?_ ?_
  · refine Ensures.step fun colon => Ensures.ite ?_ ?_
    · exact Ensures.step ends
    · exact Ensures.step fun rest => Ensures.step ends
  · refine Ensures.ite ?_ ?_
    · exact Ensures.step ends
    · exact Ensures.step ends

/-- A `case` block ends with the end of a line. -/
theorem ensures_caseBlock (verbal : inner.Verbal last) (lays : Lays last statement) :
    Ensures (Fresh last line lastLine) (caseBlock inner statement) fun _ =>
      Fresh last line lastLine := by
  have built (pattern : Pattern) (guard : Option Expr) : Ensures (Ready last line lastLine)
      (do return some (Case.mk pattern guard (← block inner statement)))
      fun _ => Fresh last line lastLine := by
    refine (ensures_block verbal lays).bind fun body => ?_
    exact ensures_pure fun _ fresh => fresh
  refine Ensures.tryTake (Ready last line lastLine) (fun c fresh _ => fresh.toReady.next) ?_ ?_
  · refine Ensures.step fun pattern => Ensures.step fun condition => Ensures.ite ?_ ?_
    · exact Ensures.step (built pattern)
    · exact Ensures.step (built pattern)
  · exact ensures_pure fun _ fresh => fresh

theorem ensures_matchBlock (verbal : inner.Verbal last) (lays : Lays last statement)
    (subject : Expr) :
    Ensures (Fresh last line lastLine) (matchBlock inner statement first subject)
      (Compound last line lastLine first []) := by
  refine Ensures.tryTake (Fresh last line lastLine) ?_ ?_ ?_
  · intro c fresh indent
    exact (fresh.layout (by rw [indent]; rfl)).1
  · refine (ensures_collect_keeps (ensures_caseBlock verbal lays) _).bind fun cases => ?_
    refine Ensures.ite ensures_fail_bind ?_
    refine Ensures.expecting (Fresh last line lastLine) ?_ ?_
    · intro c fresh dedent
      exact (fresh.layout (by rw [dedent]; rfl)).1
    · exact ensures_spanning (fun _ => rfl) (fun _ => rfl) fun _ => trivial
  · exact ensures_failWith_bind

/-! ### Statements of all kinds -/

/-- One statement is what a rule reads. -/
theorem Ensures.single {P : Cursor → Prop} {rule : Reading Stmt}
    (read : Ensures P rule fun s => Ends last line lastLine [s]) :
    Ensures P (do return [← rule]) (Ends last line lastLine) := by
  refine read.bind fun s => ?_
  exact ensures_pure fun _ ended => ended

theorem lays_whole (verbal : inner.Verbal last) (lays : Lays last statement) :
    Lays last (whole inner statement) := by
  intro line lastLine
  refine Ensures.here fun p begun => ?_
  have compound {P : Cursor → Prop} {rule : Reading Stmt}
      (read : Ensures P rule (Compound last p.line (max p.line lastLine) p.line [])) :
      Ensures P (do return [← rule]) (Ends last line lastLine) :=
    Ensures.single (read.mono fun _ _ built => built.ends begun (by simp))
  have defined : Ensures (Ready last p.line lastLine)
      (do return [← definition inner statement []]) (Ends last line lastLine) := by
    refine Ensures.single ?_
    exact (ensures_definition verbal lays (by simp)).of fun c ready => ready.mono begun (Nat.le_refl _)
  refine Ensures.peek fun token => ?_
  split
  · refine Ensures.word rfl ?_
    exact compound (ensures_branch verbal lays _)
  · refine Ensures.word rfl ?_
    exact compound (ensures_forLoop verbal lays _)
  · refine Ensures.word rfl ?_
    refine Ensures.step fun test => ?_
    refine (ensures_block verbal lays).bind fun body => ?_
    refine (ensures_optionalBlock verbal lays).bind fun otherwise => ?_
    exact compound (ensures_spanning (fun _ => rfl) (fun _ => rfl) fun _ => trivial)
  · refine Ensures.word rfl ?_
    exact compound (ensures_withBlock verbal lays _)
  · refine Ensures.word rfl ?_
    exact compound (ensures_tryBlock verbal lays)
  · exact defined.of fun c known => known.1
  · exact defined.of fun c known => known.1
  · refine Ensures.of (W := Ready last line lastLine) ?_ fun c known =>
      known.1.mono begun (Nat.le_refl _)
    refine (ensures_collect ensures_decorator _).bind fun decorators => ?_
    intro c d body known success
    exact Ensures.single (ensures_definition verbal lays known.2) c d body known.1 success
  · refine Ensures.still peekSecond_still fun second => ?_
    split
    · refine Ensures.word rfl ?_
      refine Ensures.step fun _ => ?_
      exact compound (ensures_forLoop verbal lays _)
    · refine Ensures.word rfl ?_
      refine Ensures.step fun _ => ?_
      exact compound (ensures_withBlock verbal lays _)
    · exact defined.of fun c known => known.1
  · refine Ensures.attempt (ensures_matchHead rfl) (fun subject => ?_) ?_
    · exact compound (ensures_matchBlock verbal lays subject)
    · exact (lays_simpleLine verbal _ line lastLine).of fun c known =>
        known.1.mono begun (Nat.le_refl _)
  · exact (lays_simpleLine verbal _ line lastLine).of fun c known =>
      known.1.mono begun (Nat.le_refl _)

end StatementRules

/-- Statements nested no deeper than a bound. -/
theorem lays_statementWithin {inner : Inner} (verbal : inner.Verbal last) (n : Nat) :
    Lays last (statementWithin inner n) := by
  induction n with
  | zero => exact fun _ _ => ensures_fail
  | succ n ih =>
    refine StatementRules.lays_whole verbal fun line lastLine => ?_
    intro c d body ready success
    exact ih line lastLine c d body ready success

theorem ends_nil {d : Cursor} (fresh : d.Fresh last line lastLine) :
    Ends last line lastLine [] d :=
  ⟨fresh, lie_nil _ _, by simp⟩

/-- The statements of a text. -/
theorem ensures_statements {inner : Inner} (verbal : inner.Verbal last) (n line lastLine : Nat) :
    Ensures (Fresh last line lastLine) (statements inner n) (Ends last line lastLine) := by
  induction n generalizing line lastLine with
  | zero => exact ensures_fail
  | succ n ih =>
    refine Ensures.still peek_still fun token => Ensures.ite ?_ ?_
    · exact ensures_pure fun _ fresh => ends_nil fresh
    · intro c e body fresh success
      obtain ⟨first, d, read, success⟩ := run_bind.mp success
      have ended := lays_statementWithin verbal _ line lastLine c d first fresh.toReady read
      obtain ⟨rest, _, others, success⟩ := run_bind.mp success
      obtain ⟨rfl, rfl⟩ := run_pure.mp success
      have here : d.Fresh last d.line d.lastLine := ⟨ended.fresh.orderly.ready, ended.fresh.begins⟩
      exact ended.append (ih d.line d.lastLine d _ rest here others)

/-! ### The statements of a module -/

/-- The first token stands at the beginning of a line. -/
theorem fresh_lexemes {source : String} (nonempty : source.toList ≠ []) :
    Fresh ((Text.sourceLines source).length + 1) 1 0 ⟨lexemes source, 0⟩ := by
  have on := lexemes_onLines nonempty
  have orderly : Orderly ((Text.sourceLines source).length + 1) ⟨lexemes source, 0⟩ :=
    ⟨on.mono (Nat.zero_le 1), lexemes_isEnded source⟩
  have begun : 1 ≤ Cursor.line ⟨lexemes source, 0⟩ := by
    rcases orderly.cases with ⟨x, rest, -⟩ | ⟨x, y, more, rest⟩
    all_goals
      replace rest : lexemes source = _ := rest
      rw [rest] at on
      simpa [Cursor.line, rest] using on.1
  exact ⟨⟨orderly, begun, Nat.le_refl _⟩, begun⟩

/-- The statements of a text that is not empty are read from its first token on. -/
theorem read_of_parseModule {source : String} {body : List Stmt}
    (parsed : parseModule source = .ok body) :
    body = [] ∨ ∃ bound d, (Inner.ofBound bound).Verbal ((Text.sourceLines source).length + 1) ∧
      Fresh ((Text.sourceLines source).length + 1) 1 0 ⟨lexemes source, 0⟩ ∧
      (statements (.ofBound bound) bound).run ⟨lexemes source, 0⟩ = .ok (body, d) := by
  by_cases empty : source.toList = []
  · obtain rfl : source = "" := by simpa using empty
    cases parsed
    exact .inl rfl
  · unfold parseModule at parsed
    split at parsed
    · cases parsed
    · extract_lets bound at parsed
      split at parsed
      · rename_i read
        cases parsed
        exact .inr ⟨bound, _, Inner.verbal_ofBound (by omega), fresh_lexemes empty, read⟩
      · cases parsed

/-- The statements of a module stand on the lines of its text, one after the other. -/
theorem lie_of_parseModule {source : String} {body : List Stmt}
    (parsed : parseModule source = .ok body) :
    Lie 1 (Text.sourceLines source).length body ∧ ∀ s ∈ body, Nested s := by
  rcases read_of_parseModule parsed with rfl | ⟨bound, d, verbal, fresh, read⟩
  · exact ⟨lie_nil _ _, by simp⟩
  · have ended := ensures_statements verbal bound 1 0 _ _ _ fresh read
    have inside := ended.fresh.orderly.line_le
    have begins := ended.fresh.begins
    refine ⟨⟨fun s member => ?_, ended.lie.ordered⟩, ended.nested⟩
    have bounds := ended.lie.inside s member
    omega

end ProbeWeave.Syntax
