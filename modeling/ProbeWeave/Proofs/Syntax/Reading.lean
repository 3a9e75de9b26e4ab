import ProbeWeave.Proofs.Syntax.TokenLines
import ProbeWeave.Syntax.Grammar.Cursor

/-! # What reading leaves behind

A rule passes tokens, so the line of the next token and the line of the last word only grow, and a
rule that reads a word ends on no earlier line than it begins. `Ensures` says what holds of the value
and of the cursor behind a rule that succeeds; what passing a token keeps, every rule ensures.
-/

namespace ProbeWeave.Syntax

open Lexer

namespace Cursor

/-- The next token. -/
def token (c : Cursor) : Token :=
  c.rest.head?.elim .finish (·.token)

/-- The line of the next token. -/
def line (c : Cursor) : Nat :=
  (c.rest.head?.elim Position.nowhere (·.start)).line

/-- Tokens that come to an end have a next one, which is the last one or another follows. -/
theorem cases_of_ended {c : Cursor} (ended : IsEnded c.rest) :
    (∃ x, c.rest = [x] ∧ x.token.endsText = true) ∨ ∃ x y rest, c.rest = x :: y :: rest := by
  obtain ⟨z, found, ends⟩ := ended
  match rest : c.rest with
  | [] => simp [rest] at found
  | [x] =>
    rw [rest] at found
    obtain rfl : x = z := by simpa using found
    exact .inl ⟨x, rfl, ends⟩
  | x :: y :: more => exact .inr ⟨x, y, more, rfl⟩

/-- Tokens that follow each other on lines up to a last one and end where the text does. -/
structure Orderly (last : Nat) (c : Cursor) : Prop where
  on : OnLines last c.lastLine c.rest
  ended : IsEnded c.rest

namespace Orderly

variable {last : Nat} {c d : Cursor}

/-- There is a next token, and it is the last one or another follows. -/
theorem cases (orderly : c.Orderly last) :
    (∃ x, c.rest = [x] ∧ x.token.endsText = true) ∨ ∃ x y rest, c.rest = x :: y :: rest :=
  cases_of_ended orderly.ended

theorem lastLine_le_line (orderly : c.Orderly last) : c.lastLine ≤ c.line := by
  have on := orderly.on
  rcases orderly.cases with ⟨x, rest, -⟩ | ⟨x, y, more, rest⟩ <;>
    simpa [line, rest] using (rest ▸ on).1

theorem line_le (orderly : c.Orderly last) : c.line ≤ last := by
  have on := orderly.on
  rcases orderly.cases with ⟨x, rest, -⟩ | ⟨x, y, more, rest⟩
  all_goals
    rw [rest] at on
    have upright := on.2.1
    have inside := on.2.2.1
    simp only [line, rest, List.head?_cons, Option.elim_some]
    omega

/-- No token begins in front of the next one. -/
theorem line_le_start (orderly : c.Orderly last) : ∀ x ∈ c.rest, c.line ≤ x.start.line := by
  have on := orderly.on
  rcases orderly.cases with ⟨x, rest, -⟩ | ⟨x, y, more, rest⟩
  · simp [line, rest]
  · rw [rest] at on
    have upright := on.2.1
    have behind := on.2.2.2.start_le
    simp only [line, rest, List.head?_cons, Option.elim_some]
    refine List.forall_mem_cons.mpr ⟨Nat.le_refl _, fun z member => ?_⟩
    have beyond := (behind z member).1
    split at beyond <;> omega

/-- What passing the next token does to the lines. -/
theorem next (orderly : c.Orderly last) :
    c.next.Orderly last ∧ c.line ≤ c.next.line ∧ c.lastLine ≤ c.next.lastLine ∧
      (c.token.isWord = true → c.line ≤ c.next.lastLine) ∧
      (c.token.isLayout = true → c.next.lastLine = c.lastLine) ∧
      (c.token = .newline → c.lastLine < c.next.line) := by
  obtain ⟨rest, lastLine⟩ := c
  rcases orderly.cases with ⟨x, only, ends⟩ | ⟨x, y, more, several⟩
  · obtain rfl : rest = [x] := only
    refine ⟨orderly, Nat.le_refl _, Nat.le_refl _, ?_, fun _ => rfl, ?_⟩
    all_goals
      intro known
      simp only [token, List.head?_cons, Option.elim_some] at known
    · cases same : x.token <;> simp_all [Token.isWord, Token.endsText]
    · simp [known, Token.endsText] at ends
  · obtain rfl : rest = x :: y :: more := several
    have below : lastLine ≤ x.start.line := orderly.on.1
    have upright : x.start.line ≤ x.lastLine := orderly.on.2.1
    have later : OnLines last (if x.token = .newline then x.lastLine + 1 else x.lastLine)
        (y :: more) := orderly.on.2.2.2
    have beyond := later.1
    have tail : IsEnded (y :: more) := by
      obtain ⟨z, found, ends⟩ := orderly.ended
      exact ⟨z, by simpa using found, ends⟩
    have here : Cursor.line ⟨x :: y :: more, lastLine⟩ = x.start.line := rfl
    have there (l : Nat) : Cursor.line ⟨y :: more, l⟩ = y.start.line := rfl
    have seen : Cursor.token ⟨x :: y :: more, lastLine⟩ = x.token := rfl
    have passed : Cursor.next ⟨x :: y :: more, lastLine⟩ =
        ⟨y :: more, if x.token.isLayout then lastLine else x.lastLine⟩ := rfl
    rw [passed, here, there, seen]
    refine ⟨⟨later.mono ?_, tail⟩, ?_, ?_, ?_, ?_, ?_⟩
    · dsimp only
      split <;> split <;> omega
    · split at beyond <;> omega
    · dsimp only
      split <;> omega
    · intro word
      have plain : x.token.isLayout = false := by
        cases same : x.token <;> simp_all [Token.isLayout, Token.isWord]
      simp [plain, upright]
    · intro layout
      simp [layout]
    · intro ends
      rw [if_pos ends] at beyond
      dsimp only
      omega

/-- What reading on does to the lines. -/
theorem leads (orderly : c.Orderly last) (leads : c.Leads d) :
    d.Orderly last ∧ c.line ≤ d.line ∧ c.lastLine ≤ d.lastLine := by
  refine leads.keeps (P := fun d => d.Orderly last ∧ c.line ≤ d.line ∧ c.lastLine ≤ d.lastLine)
    ?_ ⟨orderly, Nat.le_refl _, Nat.le_refl _⟩
  rintro e ⟨orderly, line, lastLine⟩
  obtain ⟨after, further, ended, -⟩ := orderly.next
  exact ⟨after, Nat.le_trans line further, Nat.le_trans lastLine ended⟩

end Orderly

end Cursor

namespace Reading

variable {α β : Type} {c d : Cursor}

theorem run_bind {reading : Reading α} {next : α → Reading β} {b : β} :
    (reading >>= next).run c = .ok (b, d) ↔
      ∃ a e, reading.run c = .ok (a, e) ∧ (next a).run e = .ok (b, d) := by
  have steps : (reading >>= next).run c = (reading.run c).bind fun read => (next read.1).run read.2 := by
    dsimp only [bind]
    cases reading.run c <;> rfl
  rw [steps]
  cases reading.run c with
  | error failure => simp [Except.bind]
  | ok result =>
    constructor
    · exact fun success => ⟨result.1, result.2, rfl, success⟩
    · rintro ⟨a, e, same, success⟩
      cases same
      exact success

theorem run_pure {a b : α} : (pure a : Reading α).run c = .ok (b, d) ↔ a = b ∧ c = d := by
  change Except.ok (a, c) = Except.ok (b, d) ↔ _
  simp

theorem run_take (token : Token) :
    (take token).run c = .ok (if c.token = token then (true, c.next) else (false, c)) := by
  change Reading.run (if (c.token == token) = true then _ else _) c = _
  by_cases same : c.token = token
  · rw [if_pos (by simpa using same), if_pos same]
    rfl
  · rw [if_neg (by simpa using same), if_neg same]
    rfl

theorem run_expect {token : Token} {a : Unit} (success : (expect token).run c = .ok (a, d)) :
    c.token = token ∧ d = c.next := by
  obtain ⟨taken, e, tried, rest⟩ := run_bind.mp success
  rw [run_take] at tried
  split at tried
  · rename_i same
    cases tried
    cases rest
    exact ⟨same, rfl⟩
  · cases tried
    cases rest

/-! ### Rules that read a word -/

/-- Whether a rule ends on no earlier line than the next token if that is a given one. -/
def WordsAt (last : Nat) (token : Token) (reading : Reading α) : Prop :=
  ∀ c d a, c.Orderly last → c.token = token → reading.run c = .ok (a, d) → c.line ≤ d.lastLine

/-- Whether a rule reads a word: it ends on no earlier line than it begins. -/
def Words (last : Nat) (reading : Reading α) : Prop :=
  ∀ token, WordsAt last token reading

variable {last : Nat} {token : Token} {reading : Reading α} {next : α → Reading β}

/-- A word that was read stays read. -/
theorem WordsAt.bind (words : WordsAt last token reading) : WordsAt last token (reading >>= next) := by
  intro c d b orderly known success
  obtain ⟨a, e, first, second⟩ := run_bind.mp success
  obtain ⟨further, -, -⟩ := orderly.leads (reading.forward first)
  obtain ⟨-, -, grown⟩ := further.leads ((next a).forward second)
  have read := words c e a orderly known first
  omega

theorem Words.bind (words : Words last reading) : Words last (reading >>= next) :=
  fun token => (words token).bind

/-- A word can also be read later. -/
theorem Words.after (words : ∀ a, Words last (next a)) : Words last (reading >>= next) := by
  intro token c d b orderly _ success
  obtain ⟨a, e, first, second⟩ := run_bind.mp success
  obtain ⟨further, line, -⟩ := orderly.leads (reading.forward first)
  have read := words a _ e d b further rfl second
  omega

theorem Words.map {f : α → β} (words : Words last reading) : Words last (f <$> reading) :=
  words.bind

theorem wordsAt_fail : WordsAt last token (fail : Reading α) := by
  intro c d a _ _ success
  cases success

theorem words_fail : Words last (fail : Reading α) :=
  fun _ => wordsAt_fail

theorem wordsAt_skip (word : token.isWord = true) : WordsAt last token skip := by
  intro c d a orderly known success
  cases success
  exact orderly.next.2.2.2.1 (known ▸ word)

/-- What is read may depend on the next token. -/
theorem WordsAt.peek {next : Token → Reading β} (words : WordsAt last token (next token)) :
    WordsAt last token (Reading.peek >>= next) := by
  intro c d b orderly known success
  obtain ⟨a, e, first, second⟩ := run_bind.mp success
  cases first
  subst known
  exact words c d b orderly rfl second

theorem Words.peek {next : Token → Reading β} (words : ∀ token, WordsAt last token (next token)) :
    Words last (Reading.peek >>= next) :=
  fun token => (words token).peek

/-- A rule that passes nothing leaves the next token where it is. -/
theorem WordsAt.still (stays : ∀ c d a, reading.run c = .ok (a, d) → d = c)
    (words : ∀ a, WordsAt last token (next a)) : WordsAt last token (reading >>= next) := by
  intro c d b orderly known success
  obtain ⟨a, e, first, second⟩ := run_bind.mp success
  obtain rfl := stays c e a first
  exact words a e d b orderly known second

theorem here_still (c d : Cursor) (p : Position) (success : here.run c = .ok (p, d)) : d = c := by
  cases success
  rfl

theorem peek_still (c d : Cursor) (token : Token) (success : peek.run c = .ok (token, d)) :
    d = c := by
  cases success
  rfl

theorem peekSecond_still (c d : Cursor) (token : Token)
    (success : peekSecond.run c = .ok (token, d)) : d = c := by
  cases success
  rfl

theorem unwrap_still {found : Option α} (c d : Cursor) (a : α)
    (success : (unwrap found).run c = .ok (a, d)) : d = c := by
  cases found <;> cases success
  rfl

theorem Words.ite {b : Bool} {first second : Reading α} (yes : Words last first)
    (no : Words last second) : Words last (if b = true then first else second) := by
  split
  · exact yes
  · exact no

theorem words_expect (word : token.isWord = true) : Words last (expect token) := by
  intro _ c d a orderly _ success
  obtain ⟨same, rfl⟩ := run_expect success
  exact orderly.next.2.2.2.1 (same ▸ word)

/-! ### What holds behind a rule -/

/-- Whether the value of a rule and the cursor behind it have a property if the cursor in front of
it has one. -/
def Ensures (P : Cursor → Prop) (reading : Reading α) (Q : α → Cursor → Prop) : Prop :=
  ∀ c d a, P c → reading.run c = .ok (a, d) → Q a d

variable {P : Cursor → Prop} {Q : α → Cursor → Prop} {R : β → Cursor → Prop}

theorem Ensures.bind (first : Ensures P reading Q) (second : ∀ a, Ensures (Q a) (next a) R) :
    Ensures P (reading >>= next) R := by
  intro c d b holds success
  obtain ⟨a, e, read, success⟩ := run_bind.mp success
  exact second a e d b (first c e a holds read) success

theorem ensures_pure {a : α} (holds : ∀ c, P c → Q a c) : Ensures P (pure a) Q := by
  intro c d b before success
  obtain ⟨rfl, rfl⟩ := run_pure.mp success
  exact holds c before

theorem ensures_fail : Ensures P (fail : Reading α) Q := by
  intro c d a _ success
  cases success

theorem Ensures.ite {b : Bool} {first second : Reading α} (yes : Ensures P first Q)
    (no : Ensures P second Q) : Ensures P (if b = true then first else second) Q := by
  split
  · exact yes
  · exact no

theorem ensures_fail_bind : Ensures P (fail >>= next) R := by
  intro c d b _ success
  obtain ⟨_, _, failed, _⟩ := run_bind.mp success
  cases failed

theorem ensures_failWith_bind {breach : Breach} : Ensures P (failWith breach >>= next) R := by
  intro c d b _ success
  obtain ⟨_, _, failed, _⟩ := run_bind.mp success
  cases failed

/-- A rule that passes nothing keeps what is known. -/
theorem Ensures.still (stays : ∀ c d a, reading.run c = .ok (a, d) → d = c)
    (rest : ∀ a, Ensures P (next a) R) : Ensures P (reading >>= next) R := by
  intro c d b holds success
  obtain ⟨a, e, first, second⟩ := run_bind.mp success
  obtain rfl := stays c e a first
  exact rest a e d b holds second

theorem Ensures.mono {Q' : α → Cursor → Prop} (ensures : Ensures P reading Q)
    (weaker : ∀ a c, Q a c → Q' a c) : Ensures P reading Q' :=
  fun c d a holds success => weaker a d (ensures c d a holds success)

theorem Ensures.of {W : Cursor → Prop} (ensures : Ensures W reading Q)
    (weaker : ∀ c, P c → W c) : Ensures P reading Q :=
  fun c d a holds success => ensures c d a (weaker c holds) success

/-- A token is passed or not. -/
theorem Ensures.tryTake {next : Bool → Reading β} (P' : Cursor → Prop)
    (passes : ∀ c, P c → c.token = token → P' c.next) (yes : Ensures P' (next true) R)
    (no : Ensures P (next false) R) : Ensures P (take token >>= next) R := by
  intro c d b holds success
  obtain ⟨taken, e, first, second⟩ := run_bind.mp success
  rw [run_take] at first
  split at first
  · rename_i same
    cases first
    exact yes c.next d b (passes c holds same) second
  · cases first
    exact no c d b holds second

/-- What is known of the next token stays known while it is looked at. -/
theorem Ensures.peek {next : Token → Reading β}
    (rest : ∀ token, Ensures (fun c => P c ∧ c.token = token) (next token) R) :
    Ensures P (Reading.peek >>= next) R := by
  intro c d b holds success
  obtain ⟨token, e, first, second⟩ := run_bind.mp success
  cases first
  exact rest _ c d b ⟨holds, rfl⟩ second

/-- A rule is tried. -/
theorem Ensures.attempt {next : Option α → Reading β} (tried : Ensures P reading Q)
    (yes : ∀ a, Ensures (Q a) (next (some a)) R) (no : Ensures P (next none) R) :
    Ensures P (Reading.attempt reading >>= next) R := by
  intro c d b holds success
  obtain ⟨found, e, first, second⟩ := run_bind.mp success
  dsimp only [Reading.attempt] at first
  split at first
  · rename_i read
    cases first
    exact yes _ e d b (tried c e _ holds read) second
  · cases first
    exact no c d b holds second

/-- What a step keeps is kept by repeating it, and what holds of each value holds of all. -/
theorem ensures_collect {step : Reading (Option α)} {S : α → Prop}
    (keeps : Ensures P step fun found c => P c ∧ ∀ a ∈ found, S a) (n : Nat) :
    Ensures P (collect step n) fun all c => P c ∧ ∀ a ∈ all, S a := by
  induction n with
  | zero => exact ensures_pure fun c holds => ⟨holds, by simp⟩
  | succ n ih =>
    refine keeps.bind fun found => ?_
    cases found with
    | none => exact ensures_pure fun c holds => ⟨holds.1, by simp⟩
    | some a =>
      intro c e all holds success
      obtain ⟨rest, d, read, success⟩ := run_bind.mp success
      obtain ⟨rfl, rfl⟩ := run_pure.mp success
      obtain ⟨kept, others⟩ := ih c d rest holds.1 read
      exact ⟨kept, List.forall_mem_cons.mpr ⟨holds.2 a rfl, others⟩⟩

theorem ensures_collect_keeps {step : Reading (Option α)} (keeps : Ensures P step fun _ => P)
    (n : Nat) : Ensures P (collect step n) fun _ => P :=
  (ensures_collect (S := fun _ => True) (keeps.mono fun _ _ holds => ⟨holds, by simp⟩) n).mono
    fun _ _ holds => holds.1

/-- A token has to be passed. -/
theorem Ensures.expecting {next : Unit → Reading β} (P' : Cursor → Prop)
    (passes : ∀ c, P c → c.token = token → P' c.next) (rest : Ensures P' (next ()) R) :
    Ensures P (expect token >>= next) R := by
  intro c d b holds success
  obtain ⟨_, e, first, second⟩ := run_bind.mp success
  obtain ⟨same, rfl⟩ := run_expect first
  exact rest c.next d b (passes c holds same) second


end Reading

namespace Cursor

/-- An orderly cursor with lower bounds for the line of the next token and that of the last word. -/
structure Ready (last line lastLine : Nat) (c : Cursor) : Prop where
  orderly : c.Orderly last
  onward : line ≤ c.line
  ended : lastLine ≤ c.lastLine

/-- Such a cursor at the beginning of a line. -/
structure Fresh (last line lastLine : Nat) (c : Cursor) : Prop extends Ready last line lastLine c where
  begins : c.lastLine < c.line

variable {last line lastLine : Nat} {c : Cursor}

theorem Orderly.ready (orderly : c.Orderly last) : c.Ready last c.line c.lastLine :=
  ⟨orderly, Nat.le_refl _, Nat.le_refl _⟩

theorem Ready.mono {line' lastLine' : Nat} (ready : c.Ready last line lastLine)
    (onward : line' ≤ line) (ended : lastLine' ≤ lastLine) : c.Ready last line' lastLine' :=
  ⟨ready.orderly, Nat.le_trans onward ready.onward, Nat.le_trans ended ready.ended⟩

/-- Passing a token keeps the lower bounds. -/
theorem Ready.next (ready : c.Ready last line lastLine) : c.next.Ready last line lastLine := by
  obtain ⟨orderly, onward, ended, -⟩ := ready.orderly.next
  exact ⟨orderly, Nat.le_trans ready.onward onward, Nat.le_trans ready.ended ended⟩

/-- A word behind the cursor ends on no earlier line than it began. -/
theorem Ready.word (ready : c.Ready last line lastLine) (word : c.token.isWord = true) :
    c.next.Ready last line (max line lastLine) := by
  obtain ⟨orderly, onward, ended, read, -⟩ := ready.orderly.next
  have started := ready.onward
  have before := ready.ended
  have read := read word
  exact ⟨orderly, by omega, by omega⟩

/-- Behind the end of a line another line begins. -/
theorem Ready.newline (ready : c.Ready last line lastLine) (ends : c.token = .newline) :
    c.next.Fresh last line lastLine ∧ c.next.lastLine = c.lastLine := by
  obtain ⟨orderly, onward, -, -, stays, fresh⟩ := ready.orderly.next
  have same := stays (by rw [ends]; rfl)
  have beyond := fresh ends
  have started := ready.onward
  have before := ready.ended
  exact ⟨⟨⟨orderly, by omega, by omega⟩, by omega⟩, same⟩

/-- The tokens of the layout do not change where a line begins. -/
theorem Fresh.layout (fresh : c.Fresh last line lastLine)
    (layout : c.token.isLayout = true) :
    c.next.Fresh last line lastLine ∧ c.next.lastLine = c.lastLine := by
  obtain ⟨orderly, onward, -, -, stays, -⟩ := fresh.orderly.next
  have same := stays layout
  have started := fresh.onward
  have before := fresh.ended
  have begins := fresh.begins
  exact ⟨⟨⟨orderly, by omega, by omega⟩, by omega⟩, same⟩

end Cursor

namespace Reading

open Cursor

variable {α β : Type} {last line lastLine : Nat} {reading : Reading α} {next : α → Reading β}
  {R : β → Cursor → Prop}

/-- Reading on keeps the lower bounds. -/
theorem ensures_ready : Ensures (Ready last line lastLine) reading fun _ => Ready last line lastLine := by
  intro c d a ready success
  obtain ⟨orderly, onward, ended⟩ := ready.orderly.leads (reading.forward success)
  exact ⟨orderly, Nat.le_trans ready.onward onward, Nat.le_trans ready.ended ended⟩

/-- A step of which only the progress matters. -/
theorem Ensures.step (rest : ∀ a, Ensures (Ready last line lastLine) (next a) R) :
    Ensures (Ready last line lastLine) (reading >>= next) R :=
  ensures_ready.bind rest

/-- Behind a word, the last line is no earlier than the one the word began on. -/
theorem Words.ensures (words : Words last reading) :
    Ensures (Ready last line lastLine) reading fun _ => Ready last line (max line lastLine) := by
  intro c d a ready success
  obtain ⟨orderly, onward, ended⟩ := ready.orderly.leads (reading.forward success)
  have read := words _ c d a ready.orderly rfl success
  have started := ready.onward
  have before := ready.ended
  exact ⟨orderly, by omega, by omega⟩

/-- The next token is a word, and passed. -/
theorem Ensures.word {token : Token} {next : Unit → Reading β} (word : token.isWord = true)
    (rest : Ensures (Ready last line (max line lastLine)) (next ()) R) :
    Ensures (fun c => c.Ready last line lastLine ∧ c.token = token) (skip >>= next) R := by
  intro c d b known success
  obtain ⟨_, e, first, second⟩ := run_bind.mp success
  cases first
  exact rest c.next d b (known.1.word (known.2 ▸ word)) second

/-- The line of the next token is a lower bound for all that follows. -/
theorem Ensures.here {next : Position → Reading β}
    (rest : ∀ p, line ≤ p.line → Ensures (Ready last p.line lastLine) (next p) R) :
    Ensures (Ready last line lastLine) (Reading.here >>= next) R := by
  intro c d b ready success
  obtain ⟨p, e, first, second⟩ := run_bind.mp success
  cases first
  exact rest _ ready.onward c d b ⟨ready.orderly, Nat.le_refl _, ready.ended⟩ second

end Reading

end ProbeWeave.Syntax
