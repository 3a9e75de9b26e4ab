import ProbeWeave.Syntax.Token

/-!
# Reading tokens one after the other

A `Reading` consumes tokens from the front of a list, or fails at the token that fits no rule.
Rules look at most two tokens ahead; the few that have to try two ways keep the failure that
came later in the text. No rule goes back, and each carries the proof of that: whatever holds of a
cursor and is kept by passing a token holds wherever a rule leads.
-/

namespace ProbeWeave.Syntax

/-- A place where reading stopped, and why. -/
structure Failure where
  position : Position
  breach : Breach
  deriving DecidableEq, Repr

/-- The tokens still to be read and the line on which the last word read ended. -/
structure Cursor where
  rest : List Lexeme
  lastLine : Nat

namespace Cursor

/-- The cursor behind the next token. The last token is not passed. -/
def next (cursor : Cursor) : Cursor :=
  match cursor.rest with
  | lexeme :: second :: rest =>
    ⟨second :: rest, if lexeme.token.isLayout then cursor.lastLine else lexeme.lastLine⟩
  | _ => cursor

/-- Whether one cursor is reached from another by passing tokens. -/
inductive Leads : Cursor → Cursor → Prop where
  | here (c : Cursor) : Leads c c
  | pass {c d : Cursor} (later : Leads c.next d) : Leads c d

theorem Leads.trans {c d e : Cursor} (first : c.Leads d) (second : d.Leads e) : c.Leads e := by
  induction first with
  | here => exact second
  | pass _ ih => exact .pass (ih second)

/-- What passing a token keeps is kept wherever a cursor leads. -/
theorem Leads.keeps {P : Cursor → Prop} (step : ∀ c, P c → P c.next) {c d : Cursor}
    (leads : c.Leads d) (holds : P c) : P d := by
  induction leads with
  | here => exact holds
  | pass _ ih => exact ih (step _ holds)

end Cursor

/-- A rule of the grammar: reads tokens and makes a value of them. -/
structure Reading (α : Type) where
  run : Cursor → Except Failure (α × Cursor)
  forward : ∀ {c d : Cursor} {a : α}, run c = .ok (a, d) → c.Leads d

namespace Reading

instance : Monad Reading where
  pure a := ⟨fun cursor => .ok (a, cursor), fun success => by cases success; exact .here _⟩
  bind reading next :=
    ⟨fun cursor =>
      match reading.run cursor with
      | .ok (a, cursor) => (next a).run cursor
      | .error failure => .error failure,
    fun success => by
      split at success
      · rename_i first
        exact (reading.forward first).trans ((next _).forward success)
      · cases success⟩

/-- A rule that is made only where it is used, which lets rules be made of each other. -/
def later {α : Type} (reading : Unit → Reading α) : Reading α :=
  ⟨fun cursor => (reading ()).run cursor, (reading ()).forward⟩

/-- Where reading stands. -/
def cursor : Reading Cursor :=
  ⟨fun cursor => .ok (cursor, cursor), fun success => by cases success; exact .here _⟩

/-- Fails for a given reason. -/
def error {α : Type} (failure : Failure) : Reading α :=
  ⟨fun _ => .error failure, fun success => by cases success⟩

/-- Passes the next token. -/
def skip : Reading Unit :=
  ⟨fun cursor => .ok ((), cursor.next), fun success => by cases success; exact .pass (.here _)⟩

/-- The next token. Behind the last one there is only the end. -/
def peek : Reading Token := do
  return (← cursor).rest.head?.elim .finish (·.token)

/-- The token behind the next one. -/
def peekSecond : Reading Token := do
  return ((← cursor).rest.drop 1).head?.elim .finish (·.token)

/-- Where the next token starts. -/
def here : Reading Position := do
  return (← cursor).rest.head?.elim .nowhere (·.start)

/-- The line on which the last word read ended. -/
def lastLine : Reading Nat := do
  return (← cursor).lastLine

/-- Fails at the next token. A word of the layout that fits no rule breaks the indentation. -/
def fail {α : Type} : Reading α := do
  let breach :=
    match ← peek with
    | .broken breach => breach
    | .indent | .dedent => .indentation
    | _ => .invalid
  error ⟨← here, breach⟩

/-- Fails at the next token for a given reason. -/
def failWith {α : Type} (breach : Breach) : Reading α := do
  error ⟨← here, breach⟩

/-- Passes the next token if it is the given one, and says whether it was. -/
def take (token : Token) : Reading Bool := do
  if (← peek) == token then
    skip
    return true
  else return false

/-- Passes an operator if it comes next. -/
def takeOperator (symbol : String) : Reading Bool :=
  take (.operator symbol)

/-- Passes a keyword if it comes next. -/
def takeKeyword (word : String) : Reading Bool :=
  take (.keyword word)

/-- Whether an operator comes next. -/
def seesOperator (symbol : String) : Reading Bool := do
  return (← peek) == .operator symbol

/-- Whether a keyword comes next. -/
def seesKeyword (word : String) : Reading Bool := do
  return (← peek) == .keyword word

/-- Passes the given token or fails. -/
def expect (token : Token) : Reading Unit := do
  unless ← take token do fail

/-- Passes an operator or fails. -/
def expectOperator (symbol : String) : Reading Unit :=
  expect (.operator symbol)

/-- Passes a keyword or fails. -/
def expectKeyword (word : String) : Reading Unit :=
  expect (.keyword word)

/-- A name that is no keyword. -/
def name : Reading String := do
  match ← peek with
  | .name id =>
    skip
    return id
  | _ => fail

/-- Fails at the next token unless a value is given. -/
def unwrap {α : Type} : Option α → Reading α
  | some a => return a
  | none => fail

/-- Reads one way and, if that fails, the other way from the same place. -/
def orElse {α : Type} (first second : Reading α) : Reading α :=
  ⟨fun cursor =>
    match first.run cursor with
    | .ok result => .ok result
    | .error failure =>
      match second.run cursor with
      | .ok result => .ok result
      | .error other =>
        .error (if other.position.before failure.position then failure else other),
  fun success => by
    split at success
    · rename_i read
      cases success
      exact first.forward read
    · split at success
      · rename_i read
        cases success
        exact second.forward read
      · cases success⟩

/-- Reads one way if that succeeds and consumes nothing otherwise. -/
def attempt {α : Type} (reading : Reading α) : Reading (Option α) :=
  ⟨fun cursor =>
    match reading.run cursor with
    | .ok (a, cursor) => .ok (some a, cursor)
    | .error _ => .ok (none, cursor),
  fun success => by
    split at success
    · rename_i read
      cases success
      exact reading.forward read
    · cases success
      exact .here _⟩

/-- Repeats a step while it gives a value, at most as often as the bound says. -/
def collect {α : Type} (step : Reading (Option α)) : Nat → Reading (List α)
  | 0 => return []
  | n + 1 => do
    match ← step with
    | none => return []
    | some a => return a :: (← collect step n)

/--
Items parted by commas, at least one, with an optional comma at the end. `more` tells from the
token behind a comma whether another item follows. The flag says whether a comma ended the list.
-/
def commaSeparated {α : Type} (more : Token → Bool) (item : Reading α) :
    Nat → Reading (List α × Bool)
  | 0 => fail
  | n + 1 => do
    let first ← item
    if ← takeOperator "," then
      if more (← peek) then
        let (rest, trailing) ← commaSeparated more item n
        return (first :: rest, trailing)
      else return ([first], true)
    else return ([first], false)

end Reading

end ProbeWeave.Syntax
