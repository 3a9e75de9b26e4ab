import Mathlib.Data.List.Count
import ProbeWeave.Proofs.Syntax.TokenText

/-! # How a text is cut into tokens, and their lines

`Cut` says once what the lexer does: it passes text that is no token, marks the layout, and cuts
words from the front. What holds of the tokens of every text is proved by induction on it.

Tokens follow each other line after line, and what stands behind a `newline` stands on a later line.
The last line is known beforehand: every line of a text is ended by a break, so there are at most as
many as breaks, and one more for the tokens behind the text.
-/

namespace ProbeWeave.Syntax

/-- Whether a token has a text of its own. -/
def Token.isWord : Token → Bool
  | name _ | keyword _ | number _ | string _ | operator _ => true
  | _ => false

/-- Whether nothing follows a token. -/
def Token.endsText : Token → Bool
  | finish | broken _ => true
  | _ => false

/-- Whether a token shows where blocks begin and end. -/
def Token.isMargin : Token → Bool
  | indent | dedent => true
  | _ => false

namespace Lexer

/-- Whether tokens are what a text from a position on is cut into, up to its end or to where it is no
text of tokens. -/
inductive Cut : Position → List Char → List Lexeme → Prop where
  | pass {p : Position} (used : List Char) {cs : List Char} {xs : List Lexeme}
      (behind : Cut (advance p used) cs xs) : Cut p (used ++ cs) xs
  | margin {p : Position} {cs : List Char} {xs : List Lexeme} {tokens : List Token}
      (bare : ∀ token ∈ tokens, token.isMargin = true) (behind : Cut p cs xs) :
      Cut p cs (tokens.map (mark · p) ++ xs)
  | newline {p : Position} {cs : List Char} {xs : List Lexeme}
      (behind : Cut (advance p ['\n']) cs xs) : Cut p ('\n' :: cs) (mark .newline p :: xs)
  | word {p : Position} {token : Token} {text rest : List Char} {xs : List Lexeme}
      (cut : nextToken (text ++ rest) = some (token, text, rest))
      (behind : Cut (advance p text) rest xs) :
      Cut p (text ++ rest) (⟨token, p, (advance p text).line⟩ :: xs)
  | final {p : Position} {cs : List Char} {token : Token} (ends : token.endsText = true) :
      Cut p cs [mark token p]

theorem layout_isMargin {blocks after : List Indentation} {here : Indentation}
    {tokens : List Token} (laid : layout blocks here = .ok (tokens, after)) :
    ∀ token ∈ tokens, token.isMargin = true := by
  unfold layout at laid
  dsimp only at laid
  split at laid
  · split at laid <;> cases laid
    simp
  · split at laid
    · split at laid
      · cases laid
      · split at laid <;> cases laid
        simp [Token.isMargin]
    · split at laid
      · cases laid
      · split at laid <;> cases laid
        intro token member
        rw [List.eq_of_mem_replicate member]
        rfl

variable {continued : State → List Char → List Lexeme}

theorem scanLine_cut (continues : ∀ state cs, Cut state.position cs (continued state cs))
    (blank : Bool) (state : State) (cs : List Char) :
    Cut state.position cs (scanLine continued blank state cs) := by
  unfold scanLine
  extract_lets isGap gap behindGap comment behind position
  have whole : gap ++ comment ++ behind = cs := by
    have commented : comment ++ behind = behindGap := by
      simp only [comment, behind]
      split
      · exact List.takeWhile_append_dropWhile
      · rfl
    rw [List.append_assoc, commented]
    exact List.takeWhile_append_dropWhile
  rw [← whole]
  refine .pass _ ?_
  change Cut position behind _
  clear_value position behind comment
  split
  · split
    · have dedents : ∀ token ∈ List.replicate (state.blocks.length - 1) Token.dedent,
          token.isMargin = true := by simp [Token.isMargin]
      have ended : Cut position [] [mark .finish position] := .final rfl
      have closed := Cut.margin dedents ended
      rwa [List.map_replicate] at closed
    · exact .final rfl
  · rename_i rest
    have later := continues { state with position := advance position ['\n'], fresh := true } rest
    split
    · exact .pass ['\n'] later
    · exact .newline later
  · rename_i rest
    split
    · exact .final rfl
    · exact .pass ['\\', '\n']
        (continues { state with position := advance position ['\\', '\n'] } rest)
  · split
    · exact .final rfl
    · exact .final rfl
    · rename_i token text rest notBroken found
      obtain rfl := nextToken_append found
      extract_lets after brackets
      clear_value brackets
      split
      · exact .final rfl
      · rename_i opened
        exact .word found
          (continues { state with position := after, brackets := opened } rest)

/-- The tokens of a text are cut from it. -/
theorem scan_cut (n : Nat) (state : State) (cs : List Char) :
    Cut state.position cs (scan n state cs) := by
  induction n generalizing state cs with
  | zero => exact .final rfl
  | succ n ih =>
    rw [scan]
    split
    · split
      · exact .final rfl
      · rename_i here found
        obtain rfl : here.passed ++ here.rest = cs := margin_append found
        refine .pass _ ?_
        extract_lets position blank
        change Cut position here.rest _
        clear_value position
        split
        · exact scanLine_cut ih _ { state with position, fresh := false } _
        · split
          · exact .final rfl
          · rename_i tokens blocks laid
            exact .margin (layout_isMargin laid)
              (scanLine_cut ih _ { state with position, blocks, fresh := false } _)
    · exact scanLine_cut ih _ _ _

end Lexer

/-- Tokens on lines from one up to another, each behind the one before and, if that one ends its
line, on a later line. -/
def OnLines (last : Nat) : Nat → List Lexeme → Prop
  | _, [] => True
  | line, x :: rest =>
    line ≤ x.start.line ∧ x.start.line ≤ x.lastLine ∧ x.lastLine ≤ last ∧
      OnLines last (if x.token = .newline then x.lastLine + 1 else x.lastLine) rest

namespace OnLines

variable {last line : Nat} {xs ys : List Lexeme}

theorem mono {earlier : Nat} (sooner : earlier ≤ line) (on : OnLines last line xs) :
    OnLines last earlier xs := by
  cases xs with
  | nil => trivial
  | cons x rest => exact ⟨Nat.le_trans sooner on.1, on.2⟩

theorem word {x : Lexeme} (plain : x.token ≠ .newline) (below : line ≤ x.start.line)
    (upright : x.start.line ≤ x.lastLine) (inside : x.lastLine ≤ last)
    (later : OnLines last x.lastLine xs) : OnLines last line (x :: xs) := by
  refine ⟨below, upright, inside, ?_⟩
  rwa [if_neg plain]

theorem newline {position : Position} (below : line ≤ position.line) (inside : position.line ≤ last)
    (later : OnLines last (position.line + 1) xs) :
    OnLines last line (Lexer.mark .newline position :: xs) := by
  have ends : (Lexer.mark .newline position).token = .newline := rfl
  refine ⟨below, Nat.le_refl _, inside, ?_⟩
  rw [if_pos ends]
  exact later

theorem mark {token : Token} {position : Position} (plain : token ≠ .newline)
    (below : line ≤ position.line) (inside : position.line ≤ last) :
    OnLines last line [Lexer.mark token position] :=
  word plain below (Nat.le_refl _) inside trivial

/-- Tokens without extent at one place, in front of others. -/
theorem marks {tokens : List Token} {position : Position}
    (plain : ∀ token ∈ tokens, token ≠ .newline) (below : line ≤ position.line)
    (inside : position.line ≤ last) (on : OnLines last position.line xs) :
    OnLines last line (tokens.map (Lexer.mark · position) ++ xs) := by
  induction tokens generalizing line with
  | nil => exact on.mono below
  | cons token rest ih =>
    obtain ⟨here, others⟩ := List.forall_mem_cons.mp plain
    exact word here below (Nat.le_refl _) inside (ih others (Nat.le_refl _))

/-- Every token of such a list is on one of the lines. -/
theorem start_le (on : OnLines last line xs) : ∀ x ∈ xs, line ≤ x.start.line ∧ x.lastLine ≤ last := by
  induction xs generalizing line with
  | nil => intro x member; cases member
  | cons first rest ih =>
    obtain ⟨below, upright, inside, later⟩ := on
    refine List.forall_mem_cons.mpr ⟨⟨below, inside⟩, fun x member => ?_⟩
    obtain ⟨beyond, within⟩ := ih later x member
    refine ⟨?_, within⟩
    split at beyond <;> omega

end OnLines

namespace Lexer

/-- How many lines end in a text. -/
def breaks (cs : List Char) : Nat :=
  cs.count '\n'

theorem breaks_append (cs ds : List Char) : breaks (cs ++ ds) = breaks cs + breaks ds :=
  List.count_append

theorem advance_line (p : Position) (cs : List Char) : (advance p cs).line = p.line + breaks cs := by
  induction cs generalizing p with
  | nil => rfl
  | cons c rest ih =>
    rw [advance, List.foldl_cons, ← advance, ih, breaks, breaks, List.count_cons]
    cases c == '\n' with
    | false => simp
    | true => simp only [if_true]; omega

/-- Only the end of a line makes a `newline`. -/
theorem nextToken_ne_newline {cs text rest : List Char} {token : Token}
    (cut : nextToken cs = some (token, text, rest)) : token ≠ .newline := by
  unfold nextToken at cut
  split at cut
  · cases cut
  · dsimp only at cut
    split at cut
    · split at cut
      · obtain ⟨_, _, same⟩ := Option.map_eq_some_iff.mp cut
        cases same
        simp
      · cases cut
        unfold wordToken
        dsimp only
        split
        · simp
        · split <;> simp
    · split at cut
      · obtain ⟨_, _, same⟩ := Option.map_eq_some_iff.mp cut
        cases same
        simp
      · split at cut <;>
        · obtain ⟨_, _, same⟩ := Option.map_eq_some_iff.mp cut
          cases same
          simp

/-- What the rest of a text is cut into if it begins on a line and not more lines end in it. -/
def Continues (last : Nat) (continued : State → List Char → List Lexeme) : Prop :=
  ∀ (state : State) (cs : List Char), state.position.line + breaks cs ≤ last →
    OnLines last state.position.line (continued state cs)

variable {last : Nat} {continued : State → List Char → List Lexeme}

/-- A text stands on as many lines as end in it, and on the last one. -/
theorem Cut.onLines {p : Position} {cs : List Char} {xs : List Lexeme} (cut : Cut p cs xs)
    (enough : p.line + breaks cs ≤ last) : OnLines last p.line xs := by
  induction cut with
  | @pass p used cs xs _ ih =>
    have passed : (advance p used).line = p.line + breaks used := advance_line _ _
    rw [breaks_append] at enough
    exact (ih (by omega)).mono (by omega)
  | @margin p cs xs tokens bare _ ih =>
    have plain : ∀ token ∈ tokens, token ≠ .newline := by
      rintro _ member rfl
      cases bare _ member
    exact .marks plain (Nat.le_refl _) (by omega) (ih enough)
  | @newline p cs xs _ ih =>
    have next : (advance p ['\n']).line = p.line + 1 := advance_line _ _
    have counted : breaks ('\n' :: cs) = breaks cs + 1 := by simp [breaks]
    exact .newline (Nat.le_refl _) (by omega) (next ▸ ih (by omega))
  | @word p token text rest xs cut _ ih =>
    have next : (advance p text).line = p.line + breaks text := advance_line _ _
    rw [breaks_append] at enough
    exact .word (nextToken_ne_newline cut) (Nat.le_refl _) (by dsimp only; omega)
      (by dsimp only; omega) (ih (by omega))
  | final ends =>
    exact .mark (by rintro rfl; cases ends) (Nat.le_refl _) (by omega)

theorem scan_onLines (n : Nat) : Continues last (scan n) :=
  fun state cs enough => (scan_cut n state cs).onLines enough

/-- Whether a text is closed: empty, or with a break at its end. -/
def isClosed (cs : List Char) : Bool :=
  cs.getLast?.all (· == '\n')

theorem isClosed_newline (cs : List Char) : isClosed ('\n' :: cs) = isClosed cs := by
  cases cs <;> simp [isClosed]

theorem isClosed_cons (c d : Char) (cs : List Char) :
    isClosed (c :: d :: cs) = isClosed (d :: cs) := by
  simp [isClosed]

/-- The lines of a text are the breaks in it, and one more if the last line has none. -/
theorem length_cutLines (cs : List Char) :
    (Text.cutLines Text.isSourceBreak cs).length =
      breaks (Text.unifyBreaks cs) + if isClosed (Text.unifyBreaks cs) then 0 else 1 := by
  fun_induction Text.unifyBreaks cs with
  | case1 => rfl
  | case2 rest ih =>
    have cut : (Text.cutLines Text.isSourceBreak ('\r' :: '\n' :: rest)).length =
        (Text.cutLines Text.isSourceBreak rest).length + 1 := by
      simp [Text.cutLines, Text.isSourceBreak]
    rw [cut, ih, isClosed_newline, breaks, breaks, List.count_cons_self]
    omega
  | case3 rest single ih =>
    have alone : (rest.head? == some '\n') = false := by
      cases rest with
      | nil => rfl
      | cons d more =>
        have other : d ≠ '\n' := fun same => single more (by rw [same])
        simpa using other
    have cut : Text.cutLines Text.isSourceBreak ('\r' :: rest) =
        ['\r'] :: Text.cutLines Text.isSourceBreak rest := by
      simp [Text.cutLines, Text.isSourceBreak, alone]
    rw [cut, List.length_cons, ih, isClosed_newline, breaks, breaks, List.count_cons_self]
    omega
  | case4 c rest _ notReturn ih =>
    by_cases ends : c = '\n'
    · subst ends
      have cut : Text.cutLines Text.isSourceBreak ('\n' :: rest) =
          ['\n'] :: Text.cutLines Text.isSourceBreak rest := by
        simp [Text.cutLines, Text.isSourceBreak]
      rw [cut, List.length_cons, ih, isClosed_newline, breaks, breaks, List.count_cons_self]
      omega
    · have plain : Text.isSourceBreak c = false := by
        simpa [Text.isSourceBreak, ends] using notReturn
      cases rest with
      | nil => simp [Text.cutLines, plain, Text.unifyBreaks, breaks, isClosed, ends]
      | cons d more =>
        obtain ⟨line, lines, cut⟩ := List.exists_cons_of_ne_nil (Text.cutLines_ne_nil _ d more)
        obtain ⟨e, others, unified⟩ := List.exists_cons_of_ne_nil (Text.unifyBreaks_ne_nil d more)
        rw [Text.cutLines, plain, Bool.false_and, if_neg Bool.false_ne_true, cut]
        rw [cut, unified] at ih
        rw [unified, isClosed_cons, breaks, List.count_cons_of_ne ends]
        exact ih

/-- Whether tokens end with one that ends a text. -/
def IsEnded (xs : List Lexeme) : Prop :=
  ∃ x, xs.getLast? = some x ∧ x.token.endsText = true

theorem isEnded_mark {token : Token} {position : Position} (ends : token.endsText = true) :
    IsEnded [mark token position] :=
  ⟨_, rfl, ends⟩

theorem IsEnded.append {xs ys : List Lexeme} (ended : IsEnded ys) : IsEnded (xs ++ ys) := by
  obtain ⟨x, last, ends⟩ := ended
  exact ⟨x, by rw [List.getLast?_append, last]; rfl, ends⟩

theorem IsEnded.cons {x : Lexeme} {xs : List Lexeme} (ended : IsEnded xs) : IsEnded (x :: xs) :=
  show IsEnded ([x] ++ xs) from ended.append

theorem Cut.isEnded {p : Position} {cs : List Char} {xs : List Lexeme} (cut : Cut p cs xs) :
    IsEnded xs := by
  induction cut with
  | pass _ _ ih => exact ih
  | margin _ _ ih => exact ih.append
  | newline _ ih | word _ _ ih => exact ih.cons
  | final ends => exact isEnded_mark ends

/-- The tokens of a text end with the one that says so. -/
theorem scan_isEnded (n : Nat) (state : State) (cs : List Char) : IsEnded (scan n state cs) :=
  (scan_cut n state cs).isEnded

end Lexer

open Lexer

/-- The tokens of a module stand on its lines, the ones behind it on the next. -/
theorem lexemes_onLines {source : String} (nonempty : source.toList ≠ []) :
    OnLines ((Text.sourceLines source).length + 1) 1 (lexemes source) := by
  have counted := length_cutLines source.toList
  obtain ⟨c, rest, chars⟩ := List.exists_cons_of_ne_nil nonempty
  obtain ⟨d, more, unified⟩ :=
    List.exists_cons_of_ne_nil (chars ▸ Text.unifyBreaks_ne_nil c rest :
      Text.unifyBreaks source.toList ≠ [])
  rw [unified] at counted
  unfold lexemes lexemesAt
  extract_lets cs closed
  have enough : 1 + breaks closed ≤ (Text.sourceLines source).length + 1 := by
    rw [Text.sourceLines, List.length_map, counted]
    have ends : (d :: more).getLast? = some ((d :: more).getLast (by simp)) :=
      List.getLast?_eq_some_getLast _
    generalize (d :: more).getLast (by simp) = final at ends
    simp only [closed, cs, unified, isClosed, ends, Bool.true_and, Option.all_some]
    by_cases same : final = '\n'
    · simp [same]
      omega
    · have added : breaks ['\n'] = 1 := rfl
      rw [if_pos (by simpa using same), breaks_append, added]
      simp [same]
      omega
  exact scan_onLines _ (start ⟨1, 0⟩) closed enough

theorem lexemes_isEnded (source : String) : IsEnded (lexemes source) :=
  scan_isEnded _ _ _

end ProbeWeave.Syntax
