import ProbeWeave.Proofs.Syntax.Layout

/-! # Where decorated definitions begin

A decorated definition is read from an `@` on that stands below all statements in front of it. The
first line of the definition is that of the expression behind the `@`, which may be a later one.
-/

namespace ProbeWeave.Syntax

open Lexer Weaving Cursor Reading

/-- The `@` that a definition among other statements begins with: it stands below those in front of
the definition. -/
structure Opens (body : List Stmt) (s : Stmt) (x : Lexeme) : Prop where
  token : x.token = .operator "@"
  begun : x.start.line ≤ firstLine s
  behind : ∀ p ∈ body, p.lines.last < x.start.line ∨ firstLine s ≤ firstLine p

/-- Whether all decorated definitions among statements begin with an `@` out of some tokens, on no
earlier line than a first one. -/
def Opened (all : List Lexeme) (line : Nat) (body : List Stmt) : Prop :=
  ∀ s ∈ body, s.decorators ≠ [] → ∃ x ∈ all, line ≤ x.start.line ∧ Opens body s x

/-- The same of the statements of a class. -/
def NestedOpened (all : List Lexeme) : Stmt → Prop
  | .classDef lines _ _ _ body _ => Opened all lines.first body
  | _ => True

/-- What reading statements from a line on finds. -/
structure Finds (all : List Lexeme) (line : Nat) (body : List Stmt) : Prop where
  opened : Opened all line body
  nested : ∀ s ∈ body, NestedOpened all s

/-- A cursor among tokens that follow each other. -/
structure Part (all : List Lexeme) (last line : Nat) (c : Cursor) : Prop where
  orderly : c.Orderly last
  onward : line ≤ c.line
  among : c.rest ⊆ all

variable {all : List Lexeme} {last line : Nat} {c d : Cursor}

theorem Part.leads (part : Part all last line c) (leads : c.Leads d) : Part all last line d := by
  obtain ⟨orderly, onward, -⟩ := part.orderly.leads leads
  refine ⟨orderly, Nat.le_trans part.onward onward, ?_⟩
  refine leads.keeps (P := fun c => c.rest ⊆ all) (fun e among => ?_) part.among
  unfold Cursor.next
  split
  · rename_i x y more same
    rw [same] at among
    exact (List.cons_subset.mp among).2
  · exact among

/-- The line of the next token is a lower bound, too. -/
theorem Part.here (part : Part all last line c) : Part all last c.line c :=
  ⟨part.orderly, Nat.le_refl _, part.among⟩

theorem Opened.mono {line' : Nat} {body : List Stmt} (opened : Opened all line body)
    (above : line' ≤ line) : Opened all line' body := by
  intro s member decorated
  obtain ⟨x, among, below, opens⟩ := opened s member decorated
  exact ⟨x, among, Nat.le_trans above below, opens⟩

/-- Statements behind others. -/
theorem Finds.append {lastLine end_ : Nat} {xs ys : List Stmt} (first : Finds all line xs)
    (ends : Ends last line lastLine xs d) (second : Finds all d.line ys) (lie : Lie d.line end_ ys) :
    Finds all line (xs ++ ys) := by
  have begins := ends.fresh.begins
  have onward := ends.fresh.onward
  refine ⟨fun s member decorated => ?_, List.forall_mem_append.mpr ⟨first.nested, second.nested⟩⟩
  rcases List.mem_append.mp member with member | member
  · obtain ⟨x, among, below, opens⟩ := first.opened s member decorated
    have inside := ends.lie.inside s member
    refine ⟨x, among, below, opens.token, opens.begun, List.forall_mem_append.mpr
      ⟨opens.behind, fun p later => .inr ?_⟩⟩
    have beyond := (lie.inside p later).1
    omega
  · obtain ⟨x, among, below, opens⟩ := second.opened s member decorated
    refine ⟨x, among, by omega, opens.token, opens.begun, List.forall_mem_append.mpr
      ⟨fun p earlier => .inl ?_, opens.behind⟩⟩
    have ended := (ends.lie.inside p earlier).2.2
    omega

section Rules

variable {α β : Type} {reading : Reading α} {next : α → Reading β} {R : β → Cursor → Prop}

/-- A step of which only the progress matters. -/
theorem Reading.Ensures.among (rest : ∀ a, Ensures (Part all last line) (next a) R) :
    Ensures (Part all last line) (reading >>= next) R :=
  Ensures.bind (fun _ _ _ part success => part.leads (reading.forward success)) rest

end Rules

namespace StatementRules

variable {inner : Inner} {statement : Reading (List Stmt)} {first : Nat}

/-- What a rule makes from a token on: one statement behind an `@`, or statements without
decorators. -/
def Begins (all : List Lexeme) (token : Token) (body : List Stmt) : Prop :=
  (∀ s ∈ body, NestedOpened all s) ∧
    ((token = .operator "@" ∧ ∃ s, body = [s]) ∨ ∀ s ∈ body, s.decorators = [])

end StatementRules

end ProbeWeave.Syntax
