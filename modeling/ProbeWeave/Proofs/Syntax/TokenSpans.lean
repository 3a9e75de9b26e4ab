import ProbeWeave.Proofs.Syntax.CallOrder
import ProbeWeave.Proofs.Syntax.TokenLines
import ProbeWeave.Syntax.Literal

/-! # Where tokens stand, and the fields of formatted texts

Tokens stand one behind the other, and what a call can start in front of, an opening parenthesis or a
literal with fields, is passed before the next token starts. A field is read as a text of its own:
put between parentheses, from the brace in front of it on. Its parentheses and literals end where the
field does, which is the limit behind which no call of it starts.
-/

namespace ProbeWeave.Syntax

namespace Lexer

/-! ### Positions along a text -/

theorem advance_append (p : Position) (xs ys : List Char) :
    advance p (xs ++ ys) = advance (advance p xs) ys :=
  List.foldl_append

theorem lt_advance_cons (p : Position) (c : Char) (cs : List Char) :
    p < advance p (c :: cs) := by
  induction cs using List.reverseRecOn with
  | nil =>
    rw [Position.lt_iff]
    by_cases ends : c = '\n' <;> simp [advance, ends]
  | append_singleton cs d ih =>
    refine ih.trans ?_
    rw [← List.cons_append, advance_append, Position.lt_iff]
    by_cases ends : d = '\n' <;> simp [advance, ends]

theorem le_advance (p : Position) (cs : List Char) : p ≤ advance p cs := by
  cases cs with
  | nil => exact le_rfl
  | cons c rest => exact (lt_advance_cons p c rest).le

theorem advance_le_append (p : Position) (xs ys : List Char) :
    advance p xs ≤ advance p (xs ++ ys) :=
  advance_append p xs ys ▸ le_advance _ _

/-! ### Tokens that a call can start in front of -/

/-- Whether a character ends such a token. -/
def isEdge (c : Char) : Bool :=
  c == '(' || c == '"' || c == '\''

/-- Whether all the edges in a text are in front of a limit; the text has no breaks but newlines. -/
structure Clear (limit p : Position) (cs : List Char) : Prop where
  unified : '\r' ∉ cs
  edges : ∀ front c back, cs = front ++ c :: back → isEdge c = true →
    advance p (front ++ [c]) ≤ limit

theorem Clear.behind {limit p : Position} {used rest : List Char}
    (clear : Clear limit p (used ++ rest)) : Clear limit (advance p used) rest := by
  refine ⟨fun member => clear.unified (List.mem_append_right _ member), ?_⟩
  rintro front c back rfl edge
  rw [← advance_append, ← List.append_assoc]
  exact clear.edges (used ++ front) c back (by simp) edge

theorem clear_of_advance_le {limit p : Position} {cs : List Char} (unified : '\r' ∉ cs)
    (inside : advance p cs ≤ limit) : Clear limit p cs := by
  refine ⟨unified, ?_⟩
  rintro front c back rfl -
  refine (advance_le_append p (front ++ [c]) back).trans ?_
  simpa using inside

/-- What stands behind the last edge does not matter. -/
theorem Clear.append {limit p : Position} {cs back : List Char} (clear : Clear limit p cs)
    (unified : '\r' ∉ back) (plain : ∀ c ∈ back, isEdge c = false) : Clear limit p (cs ++ back) := by
  refine ⟨by simp [clear.unified, unified], fun front c rest same edge => ?_⟩
  rcases List.append_eq_append_iff.mp same with ⟨more, rfl, behind⟩ | ⟨more, rfl, behind⟩
  · have member : c ∈ back := by simp [behind]
    simp [plain c member] at edge
  · cases more with
    | nil =>
      have member : c ∈ back := by
        rw [List.nil_append] at behind
        exact behind ▸ List.mem_cons_self
      simp [plain c member] at edge
    | cons d more =>
      obtain ⟨rfl, rfl⟩ : c = d ∧ _ := by simpa using behind
      exact clear.edges front c more rfl edge

end Lexer

/-- The text of a token that a call can start in front of: a literal, which can hold fields, or an
opening parenthesis. -/
def Token.edgeText? : Token → Option (List Char)
  | string literal => some literal
  | operator symbol => if symbol = "(" then some ['('] else none
  | _ => none

/-- The position behind such a token; other tokens have no extent here. -/
def Lexeme.limit (x : Lexeme) : Position :=
  Lexer.advance x.start (x.token.edgeText?.getD [])

theorem Lexeme.start_le_limit (x : Lexeme) : x.start ≤ x.limit :=
  Lexer.le_advance _ _

/-- Tokens from a position on, one behind the other, with no edge behind a limit. -/
def Spaced (limit : Position) : Position → List Lexeme → Prop
  | _, [] => True
  | p, x :: rest =>
    p ≤ x.start ∧ (∀ text ∈ x.token.edgeText?, x.limit ≤ limit ∧ '\r' ∉ text) ∧
      Spaced limit x.limit rest

namespace Spaced

variable {limit p q : Position} {xs : List Lexeme}

theorem mono (spaced : Spaced limit q xs) (sooner : p ≤ q) : Spaced limit p xs := by
  cases xs with
  | nil => trivial
  | cons x rest => exact ⟨sooner.trans spaced.1, spaced.2⟩

/-- A token without an edge. -/
theorem plain {x : Lexeme} (bare : x.token.edgeText? = none) (begun : p ≤ x.start)
    (spaced : Spaced limit x.start xs) : Spaced limit p (x :: xs) := by
  refine ⟨begun, by simp [bare], ?_⟩
  rw [Lexeme.limit, bare]
  exact spaced

end Spaced

namespace Lexer

theorem stringTail_getLast? {quote : Char} {triple : Bool} {cs body rest : List Char}
    (read : stringTail quote triple cs = some (body, rest)) : body.getLast? = some quote := by
  fun_induction stringTail quote triple cs generalizing body rest
  all_goals
    first
    | cases read; done
    | rename_i ih
      obtain ⟨⟨more, after⟩, later, same⟩ := Option.map_eq_some_iff.mp read
      cases same
      simp [List.getLast?_cons, ih later]
    | cases read
      simp_all

theorem stringLiteral_getLast? {quote : Char} {cs body rest : List Char}
    (read : stringLiteral (quote :: cs) = some (body, rest)) : body.getLast? = some quote := by
  unfold stringLiteral at read
  split at read
  · rename_i same
    cases same
    split at read
    · obtain ⟨⟨more, after⟩, later, same⟩ := Option.map_eq_some_iff.mp read
      cases same
      simp [List.getLast?_cons, stringTail_getLast? later]
    · split at read
      · cases read
        simp_all
      · obtain ⟨⟨more, after⟩, later, same⟩ := Option.map_eq_some_iff.mp read
        cases same
        simp [List.getLast?_cons, stringTail_getLast? later]
  · rename_i same
    cases same
    split at read
    · cases read
      simp_all
    · cases read
  · cases read

/-- A token with an edge is its own text, which ends with the edge. -/
theorem nextToken_edgeText? {cs text rest : List Char} {token : Token}
    (cut : nextToken cs = some (token, text, rest)) : token.edgeText? = none ∨
      token.edgeText? = some text ∧ ∃ front c, text = front ++ [c] ∧ isEdge c = true := by
  have literal {c : Char} {before after body behind : List Char} (quote : c = '"' ∨ c = '\'')
      (read : stringLiteral (c :: after) = some (body, behind)) :
      ∃ front d, before ++ body = front ++ [d] ∧ isEdge d = true := by
    obtain ⟨front, same⟩ := List.getLast?_eq_some_iff.mp (stringLiteral_getLast? read)
    refine ⟨before ++ front, c, by rw [same, List.append_assoc], ?_⟩
    rcases quote with rfl | rfl <;> rfl
  unfold nextToken at cut
  split at cut
  · cases cut
  · rename_i c tail
    dsimp only at cut
    split at cut
    · split at cut
      · rename_i quoted
        obtain ⟨⟨body, behind⟩, read, same⟩ := Option.map_eq_some_iff.mp cut
        cases same
        refine .inr ⟨rfl, ?_⟩
        cases found : (c :: tail).dropWhile isWordChar with
        | nil => simp [found] at quoted
        | cons d after =>
          rw [found] at read quoted
          exact literal (by simpa using (Bool.and_eq_true_iff.mp quoted).1) read
      · cases cut
        unfold wordToken
        dsimp only
        left
        split
        · rfl
        · split <;> rfl
    · split at cut
      · obtain ⟨_, _, same⟩ := Option.map_eq_some_iff.mp cut
        cases same
        exact .inl rfl
      · split at cut
        · rename_i quote
          obtain ⟨⟨body, behind⟩, read, same⟩ := Option.map_eq_some_iff.mp cut
          cases same
          exact .inr ⟨rfl, by simpa using @literal c [] tail body behind (by simpa using quote) read⟩
        · obtain ⟨⟨op, behind⟩, read, same⟩ := Option.map_eq_some_iff.mp cut
          cases same
          by_cases parenthesis : String.ofList op = "("
          · have text : op = ['('] := by
              rw [← String.toList_ofList (l := op), parenthesis]
              rfl
            exact .inr ⟨by simp [Token.edgeText?, text], [], '(', text, rfl⟩
          · exact .inl (by simp [Token.edgeText?, parenthesis])

/-- The tokens that a text is cut into are spaced. -/
theorem Cut.spaced {limit p : Position} {cs : List Char} {xs : List Lexeme} (cut : Cut p cs xs)
    (clear : Clear limit p cs) : Spaced limit p xs := by
  induction cut with
  | pass used _ ih => exact (ih clear.behind).mono (le_advance _ _)
  | @margin p cs xs tokens bare _ ih =>
    induction tokens with
    | nil => exact ih clear
    | cons token rest others =>
      obtain ⟨here, later⟩ := List.forall_mem_cons.mp bare
      refine .plain ?_ le_rfl (others later)
      cases token <;> first | rfl | cases here
  | @newline p cs xs _ ih =>
    have behind : Clear limit (advance p ['\n']) cs := clear.behind
    exact .plain rfl le_rfl ((ih behind).mono (le_advance _ _))
  | @word p token text rest xs found _ ih =>
    have later := ih clear.behind
    rcases nextToken_edgeText? found with bare | ⟨same, front, c, rfl, edge⟩
    · exact .plain bare le_rfl (later.mono (le_advance _ _))
    · have ends :
          Lexeme.limit ⟨token, p, (advance p (front ++ [c])).line⟩ = advance p (front ++ [c]) := by
        rw [Lexeme.limit, same, Option.getD_some]
      refine ⟨le_rfl, fun text found => ?_, ends ▸ later⟩
      obtain rfl : front ++ [c] = text := Option.some.inj (same.symm.trans found)
      refine ⟨ends ▸ clear.edges front c rest (by simp) edge, fun member => ?_⟩
      exact clear.unified (List.mem_append_left _ member)
  | @final p cs token ends =>
    refine .plain ?_ le_rfl trivial
    cases token <;> first | rfl | cases ends

end Lexer

open Lexer

/-- The tokens of a module are spaced. -/
theorem spaced_lexemes (source : String) : ∃ limit, Spaced limit ⟨1, 0⟩ (lexemes source) := by
  unfold lexemes lexemesAt
  extract_lets unified closed
  refine ⟨advance ⟨1, 0⟩ closed, (scan_cut _ (start ⟨1, 0⟩) closed).spaced ?_⟩
  refine clear_of_advance_le ?_ le_rfl
  have clean : '\r' ∉ unified := Text.not_mem_unifyBreaks _
  simp only [closed]
  split
  · simp [clean]
  · exact clean

/-- The tokens of a field, read between parentheses from its opening brace on, are spaced, and no
edge is behind the field. -/
theorem spaced_field (brace : Position) {source : List Char} (unified : '\r' ∉ source) :
    Spaced (advance (advance brace ['\x7b']) source) brace
      (lexemesAt brace true ('(' :: source ++ [')'])) := by
  have inside : Clear (advance (advance brace ['\x7b']) source) brace ('(' :: source) :=
    clear_of_advance_le (by simp [unified]) le_rfl
  have same : Text.unifyBreaks ('(' :: source ++ [')']) = '(' :: source ++ [')'] :=
    Text.unifyBreaks_of_not_mem (by simp [unified])
  have final : ('(' :: source ++ [')']).getLast? = some ')' := List.getLast?_concat
  simp only [lexemesAt, same, final]
  refine (scan_cut _ (start brace) _).spaced ?_
  rw [if_pos (by decide), List.append_assoc]
  exact inside.append (by simp) (by simp [isEdge])

/-! ### The fields of formatted texts -/

namespace Literal

theorem brace_behind {outermost doubled : Bool} {before : List Char} {c : Char}
    {cs text rest : List Char} (brace : c = '\x7b' ∨ c = '\x7d')
    (read : literalRun.brace outermost before c cs = some (text, doubled, rest)) :
    rest <:+ c :: cs ∧ (doubled = false → ∀ d ∈ rest.head?, d = '\x7b' ∨ d = '\x7d') := by
  unfold literalRun.brace at read
  split at read
  · cases read
    exact ⟨(List.tail_suffix cs).trans (List.suffix_cons c cs), nofun⟩
  · split at read
    · cases read
    · cases read
      exact ⟨List.suffix_rfl, fun _ d found => Option.some.inj found ▸ brace⟩

/-- What follows the literal text in front of a brace that is not doubled begins with the brace. -/
theorem literalRun_behind {raw outermost doubled : Bool} {cs text rest : List Char}
    (read : literalRun raw outermost cs = some (text, doubled, rest)) :
    rest <:+ cs ∧ (doubled = false → ∀ c ∈ rest.head?, c = '\x7b' ∨ c = '\x7d') := by
  fun_induction literalRun raw outermost cs generalizing text doubled rest with
  | case1 =>
    cases read
    exact ⟨List.suffix_rfl, fun _ => nofun⟩
  | case2 c more brace =>
    obtain ⟨suffix, opened⟩ := brace_behind (by simp_all) read
    exact ⟨suffix.trans (List.suffix_cons _ _), opened⟩
  | case5 c more _ brace => exact brace_behind (by simp_all) read
  | case3 c more _ _ ih | case6 c more _ _ ih =>
    obtain ⟨⟨_, _, _⟩, later, same⟩ := Option.map_eq_some_iff.mp read
    cases same
    obtain ⟨suffix, opened⟩ := ih later
    exact ⟨suffix.trans (List.suffix_cons _ _), opened⟩
  | case4 c more _ _ ih =>
    obtain ⟨⟨_, _, _⟩, first, same⟩ := Option.map_eq_some_iff.mp read
    cases same
    obtain ⟨⟨_, _, _⟩, later, same⟩ := Option.map_eq_some_iff.mp first
    cases same
    obtain ⟨suffix, opened⟩ := ih later
    exact ⟨(suffix.trans (List.suffix_cons _ _)).trans (List.suffix_cons _ _), opened⟩

theorem fieldText_append {scan : FieldScan} {cs source rest : List Char}
    (read : fieldText scan cs = some (source, rest)) : source ++ rest = cs := by
  fun_induction fieldText scan cs generalizing source rest
  all_goals
    first
    | cases read; done
    | cases read; rfl
    | rename_i ih
      obtain ⟨⟨more, after⟩, later, same⟩ := Option.map_eq_some_iff.mp read
      cases same
      rw [List.cons_append, ih _ later]

/-- Whether the fields of a formatted text, and of the formats in it, follow one another from a
position up to another one, each from its opening brace on. -/
inductive PiecesIn : Position → Position → List Piece → Prop where
  | nil {p q : Position} (upright : p ≤ q) : PiecesIn p q []
  | literal {p q : Position} {pieces : List Piece} (points : List Nat) (rest : PiecesIn p q pieces) :
      PiecesIn p q (.literal points :: pieces)
  | plain {p q brace : Position} {source : List Char} {conversion : Option Conversion}
      {pieces : List Piece} (begun : p ≤ brace) (unified : '\r' ∉ source)
      (rest : PiecesIn (advance (advance brace ['\x7b']) source) q pieces) :
      PiecesIn p q (.field source (advance brace ['\x7b']) conversion none :: pieces)
  | formatted {p m q brace : Position} {source : List Char} {conversion : Option Conversion}
      {format pieces : List Piece} (begun : p ≤ brace) (unified : '\r' ∉ source)
      (inside : PiecesIn (advance (advance brace ['\x7b']) source) m format)
      (rest : PiecesIn m q pieces) :
      PiecesIn p q (.field source (advance brace ['\x7b']) conversion (some format) :: pieces)

/-- Whether reading a text from a position on leads to what follows at another position. -/
def Reaches (p : Position) (cs : List Char) (q : Position) (rest : List Char) : Prop :=
  ∃ used, cs = used ++ rest ∧ q = advance p used

namespace Reaches

variable {p q r : Position} {cs ds es : List Char}

theorem refl (p : Position) (cs : List Char) : Reaches p cs p cs :=
  ⟨[], rfl, rfl⟩

theorem pass (p : Position) (used rest : List Char) :
    Reaches p (used ++ rest) (advance p used) rest :=
  ⟨used, rfl, rfl⟩

theorem trans (first : Reaches p cs q ds) (second : Reaches q ds r es) : Reaches p cs r es := by
  obtain ⟨used, rfl, rfl⟩ := first
  obtain ⟨more, rfl, rfl⟩ := second
  exact ⟨used ++ more, by rw [List.append_assoc], by rw [advance_append]⟩

theorem of_suffix (p : Position) (suffix : ds <:+ cs) :
    Reaches p cs (advance p (cs.take (cs.length - ds.length))) ds :=
  ⟨_, (List.suffix_iff_eq_append.mp suffix).symm, rfl⟩

theorem le (reaches : Reaches p cs q ds) : p ≤ q := by
  obtain ⟨used, -, rfl⟩ := reaches
  exact le_advance p used

theorem unified (reaches : Reaches p cs q ds) (clean : '\r' ∉ cs) : '\r' ∉ ds := by
  obtain ⟨used, rfl, -⟩ := reaches
  exact fun member => clean (List.mem_append_right _ member)

end Reaches

namespace PiecesIn

variable {p m q : Position} {pieces others : List Piece}

theorem upright (inside : PiecesIn p q pieces) : p ≤ q := by
  induction inside with
  | nil upright => exact upright
  | literal _ _ ih => exact ih
  | plain begun _ _ ih => exact ((begun.trans (le_advance _ _)).trans (le_advance _ _)).trans ih
  | formatted begun _ _ _ inside rest =>
    exact (((begun.trans (le_advance _ _)).trans (le_advance _ _)).trans inside).trans rest

theorem mono (inside : PiecesIn m q pieces) (sooner : p ≤ m) : PiecesIn p q pieces := by
  induction inside with
  | nil upright => exact .nil (sooner.trans upright)
  | literal points _ ih => exact .literal points (ih sooner)
  | plain begun unified rest => exact .plain (sooner.trans begun) unified rest
  | formatted begun unified inside rest => exact .formatted (sooner.trans begun) unified inside rest

theorem append (first : PiecesIn p m pieces) (second : PiecesIn m q others) :
    PiecesIn p q (pieces ++ others) := by
  induction first with
  | nil upright => exact second.mono upright
  | literal points _ ih => exact .literal points (ih second)
  | plain begun unified _ ih => exact .plain begun unified (ih second)
  | formatted begun unified inside _ _ ih => exact .formatted begun unified inside (ih second)

end PiecesIn

theorem shownText_reaches (p : Position) (source ending : List Char) :
    Reaches p ending (advance p ((shownText source ending).1.drop source.length))
      (shownText source ending).2 := by
  unfold shownText
  split
  · rename_i rest
    simp only [List.drop_left]
    exact ⟨_, by rw [List.cons_append, List.takeWhile_append_dropWhile], rfl⟩
  · rw [List.drop_nil]
    exact .refl p ending

theorem conversionPart_reaches {p q : Position} {cs rest : List Char}
    {conversion : Option Conversion} (read : conversionPart p cs = some (conversion, q, rest)) :
    Reaches p cs q rest := by
  unfold conversionPart at read
  split at read
  · rename_i c rest
    obtain ⟨found, -, same⟩ := Option.map_eq_some_iff.mp read
    cases same
    exact .pass p ['!', c] rest
  · cases read
    exact .refl p cs

/-- A reader of pieces that leaves them in order behind where it begins. -/
def Ordered (read : Position → List Char → Option (List Piece × Position × List Char)) : Prop :=
  ∀ {p q : Position} {cs rest : List Char} {pieces : List Piece}, '\r' ∉ cs →
    read p cs = some (pieces, q, rest) → Reaches p cs q rest ∧ PiecesIn p q pieces

theorem formatPart_reaches
    {specification : Position → List Char → Option (List Piece × Position × List Char)}
    (ordered : Ordered specification) {p q : Position} {cs rest : List Char}
    {format : Option (List Piece)} (unified : '\r' ∉ cs)
    (read : formatPart specification p cs = some (format, q, rest)) :
    Reaches p cs q rest ∧ ∀ pieces ∈ format, PiecesIn p q pieces := by
  unfold formatPart at read
  split at read
  · rename_i behind
    obtain ⟨⟨pieces, _, _⟩, inside, same⟩ := Option.map_eq_some_iff.mp read
    cases same
    have colon := Reaches.pass p [':'] behind
    obtain ⟨reached, held⟩ := ordered (colon.unified unified) inside
    exact ⟨colon.trans reached, fun _ found => Option.some.inj found ▸ held.mono colon.le⟩
  · cases read
    exact ⟨.refl p cs, nofun⟩

theorem fieldPieces_reaches
    {specification : Position → List Char → Option (List Piece × Position × List Char)}
    (ordered : Ordered specification) {brace q : Position} {cs rest : List Char}
    {pieces : List Piece} (unified : '\r' ∉ cs)
    (read : fieldPieces specification (advance brace ['\x7b']) cs = some (pieces, q, rest)) :
    Reaches brace ('\x7b' :: cs) q rest ∧ PiecesIn brace q pieces := by
  simp only [fieldPieces, bind, Option.bind_eq_some_iff] at read
  obtain ⟨⟨source, ending⟩, cut, read⟩ := read
  obtain rfl := fieldText_append cut
  have begun := (Reaches.pass brace ['\x7b'] (source ++ ending)).trans (.pass _ source ending)
  have clean : '\r' ∉ source := fun member => unified (List.mem_append_left _ member)
  split at read
  · cases read
  · obtain ⟨⟨conversion, p₂, behind₂⟩, conversionRead, read⟩ := Option.bind_eq_some_iff.mp read
    obtain ⟨⟨format, p₃, behind₃⟩, formatRead, read⟩ := Option.bind_eq_some_iff.mp read
    have shown := (shownText_reaches _ source ending).trans (conversionPart_reaches conversionRead)
    have further := shown.unified fun member => unified (List.mem_append_right _ member)
    obtain ⟨formatted, held⟩ := formatPart_reaches ordered further formatRead
    dsimp only at read
    split at read
    · cases read
      have closed := Reaches.pass p₃ ['\x7d'] rest
      refine ⟨((begun.trans shown).trans formatted).trans closed, .literal _ ?_⟩
      cases format with
      | none => exact .plain le_rfl clean (.nil ((shown.le.trans formatted.le).trans closed.le))
      | some inner =>
        exact .formatted le_rfl clean ((held inner rfl).mono shown.le) (.nil closed.le)
    · cases read

theorem template_ordered (raw : Bool) (n level : Nat) : Ordered (template raw n level) := by
  induction n generalizing level with
  | zero => exact fun _ read => by cases read
  | succ n ih =>
    intro p q cs rest pieces unified read
    simp only [template, bind, Option.bind_eq_some_iff] at read
    obtain ⟨⟨text, doubled, behind⟩, run, points, -, read⟩ := read
    obtain ⟨suffix, opened⟩ := literalRun_behind run
    have passed := Reaches.of_suffix p suffix
    dsimp only at read
    generalize advance p (cs.take (cs.length - behind.length)) = here at read passed
    have further := passed.unified unified
    split at read
    · obtain ⟨⟨others, q', rest'⟩, later, same⟩ := Option.bind_eq_some_iff.mp read
      cases same
      obtain ⟨reached, inside⟩ := ih level further later
      exact ⟨passed.trans reached, .literal points (inside.mono passed.le)⟩
    · rename_i single
      split at read
      · cases read
        exact ⟨passed, .literal points (.nil passed.le)⟩
      · cases read
        exact ⟨passed, .literal points (.nil passed.le)⟩
      · rename_i c inner notClosing
        obtain rfl : c = '\x7b' := (opened (by simpa using single) c rfl).resolve_right notClosing
        split at read
        · cases read
        · obtain ⟨⟨field, p₂, behind₂⟩, fieldRead, read⟩ := Option.bind_eq_some_iff.mp read
          obtain ⟨⟨others, p₃, behind₃⟩, later, same⟩ := Option.bind_eq_some_iff.mp read
          cases same
          obtain ⟨reached, first⟩ := fieldPieces_reaches (ih (level + 1))
            (fun member => further (List.mem_cons_of_mem _ member)) fieldRead
          obtain ⟨onward, second⟩ := ih level (reached.unified further) later
          exact ⟨(passed.trans reached).trans onward,
            .literal points ((first.append second).mono passed.le)⟩

/-- What is between the quotes of a literal stands behind the mark and the opening quotes. -/
theorem split_append (literal : List Char) : ∃ closing,
    literal.take ((split literal).1.length + (split literal).2.1) ++
      ((split literal).2.2 ++ closing) = literal := by
  unfold split
  extract_lets isQuote mark quoted width body
  have whole : mark ++ quoted = literal := List.takeWhile_append_dropWhile
  refine ⟨body.drop (body.length - width), ?_⟩
  rw [List.take_append_drop, ← whole, List.take_length_add_append, List.append_assoc,
    List.take_append_drop]

/-- The pieces that a literal contributes to a formatted text. -/
def Content.pieces : Content → List Piece
  | text points => [.literal points]
  | template pieces => pieces
  | bytes _ => []

/-- The fields of a literal lie in it. -/
theorem content_pieces {start : Position} {literal : List Char} {found : Content}
    (read : content start literal = some found) (unified : '\r' ∉ literal) :
    PiecesIn start (advance start literal) found.pieces := by
  have upright := le_advance start literal
  obtain ⟨closing, whole⟩ := split_append literal
  simp only [content, bind] at read
  split at read
  · obtain ⟨⟨pieces, q, rest⟩, inside, ended⟩ := Option.bind_eq_some_iff.mp read
    dsimp only at ended
    split at ended
    · rename_i done
      cases ended
      obtain rfl : rest = [] := List.isEmpty_iff.mp done
      have opened := Reaches.pass start (literal.take ((split literal).1.length + (split literal).2.1))
        ((split literal).2.2 ++ closing)
      rw [whole] at opened
      have clean := opened.unified unified
      obtain ⟨⟨used, same, rfl⟩, held⟩ := template_ordered _ _ _
        (fun member => clean (List.mem_append_left _ member)) inside
      rw [List.append_nil] at same
      have ending : advance (advance start (literal.take ((split literal).1.length +
          (split literal).2.1))) used ≤ advance start literal := by
        conv_rhs => rw [← whole, advance_append, same]
        exact advance_le_append _ _ _
      have all := (held.mono opened.le).append (.nil ending)
      rwa [List.append_nil] at all
    · cases ended
  · split at read
    · obtain ⟨values, -, rfl⟩ := Option.map_eq_some_iff.mp read
      exact .nil upright
    · obtain ⟨points, -, rfl⟩ := Option.map_eq_some_iff.mp read
      exact .literal points (.nil upright)

end Literal

end ProbeWeave.Syntax
