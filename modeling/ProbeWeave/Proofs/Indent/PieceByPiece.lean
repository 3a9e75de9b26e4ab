import Mathlib
import ProbeWeave.Proofs.Indent.ScannedLines

/-! # The scan of code, piece by piece

The scan passes a row of pieces one by one, and at each of them it checks what the rules for brackets
and indentations check there. In the other direction, a piece stands wherever the scan goes on: the
quotes of a text open it, break it off or leave the code unfinished. So the scan accepts code exactly
if it is a row of pieces that keeps the rules, and finds the texts of the row.
-/

namespace ProbeWeave.Weaving.Indent

variable {number : Nat} {strict : Bool} {p : Place} {piece : Piece} {cs rest : List Char}

/-- What the scan knows at a place. -/
def Place.state (p : Place) (strict : Bool) : State :=
  ⟨p.level, false, none, strict, p.columns⟩

/-- The scan from a place on. -/
def placeFrom (number : Nat) (p : Place) (strict : Bool) (cs : List Char) :
    Except ScanFault (List (Nat × Nat)) :=
  match p.spot with
  | .margin column => marginFrom number (p.state strict) column cs
  | .inside => restFrom number (p.state strict) cs
  | .joint => linesFrom number { p.state strict with joined := true } cs

theorem linesFrom_nextLine (number : Nat) (p : Place) (strict : Bool) (unified : '\r' ∉ cs) :
    linesFrom number (p.state strict) cs = placeFrom number p.nextLine strict cs := by
  by_cases level : p.level = 0
  · rw [linesFrom_margin rfl level rfl unified]
    simp [placeFrom, Place.nextLine, level, Place.state]
  · simp only [placeFrom, Place.nextLine, level, if_false, Place.state]
    by_cases present : cs = []
    · subst present
      rfl
    · exact linesFrom_continued rfl (.inl level) present

theorem toLower_of_mem_mark {mark : List Char} (isMark : Syntax.Lexer.isStringMark mark = true) :
    ∀ c ∈ mark, c.toLower ∈ ['b', 'r', 'u', 'f'] := fun c member => by
  have known : ∀ word ∈ [['b'], ['r'], ['u'], ['f'], ['b', 'r'], ['r', 'b'], ['f', 'r'], ['r', 'f']],
      ∀ c ∈ word, c ∈ ['b', 'r', 'u', 'f'] := by simp
  exact known _ (List.contains_iff_mem.mp isMark) _ (List.mem_map_of_mem member)

theorem newline_not_mem_mark {mark : List Char}
    (isMark : mark = [] ∨ Syntax.Lexer.isStringMark mark = true) : '\n' ∉ mark := by
  rcases isMark with rfl | isMark
  · exact List.not_mem_nil
  · exact fun member => absurd (toLower_of_mem_mark isMark _ member) (by decide)

/-- The mark of a text is passed like a word. -/
theorem restFrom_mark {mark : List Char} {state : State}
    (isMark : mark = [] ∨ Syntax.Lexer.isStringMark mark = true) :
    restFrom number state (mark ++ cs) = restFrom number state cs := by
  have letters : ∀ c ∈ mark, c.toLower ∈ ['b', 'r', 'u', 'f'] := by
    rcases isMark with rfl | isMark
    · exact List.forall_mem_nil _
    · exact toLower_of_mem_mark isMark
  clear isMark
  induction mark with
  | nil => rfl
  | cons c mark ih =>
    obtain ⟨letter, letters⟩ := List.forall_mem_cons.mp letters
    have other {d : Char} (not : d.toLower ∉ ['b', 'r', 'u', 'f']) : c ≠ d :=
      fun same => not (same ▸ letter)
    have level : depth c = 0 := by
      simp [depth, other (d := '(') (by decide), other (d := '[') (by decide),
        other (d := '\x7b') (by decide), other (d := ')') (by decide), other (d := ']') (by decide),
        other (d := '\x7d') (by decide)]
    have bare : ¬ IsQuote c := not_or.mpr ⟨other (by decide), other (by decide)⟩
    rw [List.cons_append, restFrom_sign (other (by decide)) (other (by decide)) bare
      (other (by decide)), level, Int.add_zero, ih letters]

/-! ### Texts -/

variable {state : State} {quoted : List Char}

/-- A text of one line is passed. -/
theorem restFrom_text_line (text : IsText strict rest quoted) (unified : '\r' ∉ quoted)
    (one : '\n' ∉ quoted) : restFrom number state (quoted ++ rest) = restFrom number state rest := by
  cases text with
  | single opens behind two =>
    cases behind with
    | closed inner => exact restFrom_single opens inner (by simp_all) two
    | joined => simp at one
  | triple opens behind _ => exact restFrom_triple opens behind (by simp_all)

/-- A text of several lines is found with them, and behind it texts need not join their lines. -/
theorem restFrom_text_lines (text : IsText state.strict rest quoted) (unified : '\r' ∉ quoted)
    (several : '\n' ∈ quoted) (outside : state.text = none) :
    restFrom number state (quoted ++ rest) =
      (restFrom (number + quoted.count '\n') { state with strict := false } rest).map
        ((number, number + quoted.count '\n') :: ·) := by
  obtain ⟨quote, triple, line, tail, opening, ends, rfl⟩ := text.exists_lines several
  obtain ⟨unified, unified'⟩ : '\r' ∉ line ∧ '\r' ∉ tail := by simpa using unified
  rw [List.append_assoc, List.cons_append, restFrom_opening opening unified,
    linesFrom_ends opening.isQuote ends unified' rfl, add_count_line opening.not_mem]
  simp only [State.opened, outside]

/-- Behind a text that breaks off the next line is code, and texts have to join their lines. -/
theorem restFrom_broken (broken : IsBroken state.strict rest quoted) (unified : '\r' ∉ quoted)
    (outside : state.text = none) :
    restFrom number state (quoted ++ rest) =
      linesFrom (number + quoted.count '\n') { state with strict := true } rest := by
  obtain ⟨quote, triple, line, tail, opening, joins, breaks, rfl⟩ := isBroken_iff.mp broken
  obtain ⟨unified, unified'⟩ : '\r' ∉ line ∧ '\r' ∉ tail := by simpa using unified
  rw [List.append_assoc, List.cons_append, restFrom_opening opening unified,
    linesFrom_breaksOff opening.isQuote breaks joins unified' rfl, add_count_line opening.not_mem]
  simp only [State.opened, joins, outside]

/-! ### Piece by piece -/

/-- What the scan makes of the code behind a piece. -/
def behindPiece (number : Nat) (strict : Bool) (rest : List Char) (piece : Piece) (q : Place) :
    Except ScanFault (List (Nat × Nat)) :=
  (placeFrom (number + piece.breaks) q (piece.strictBehind strict) rest).map
    ((piece.span number).toList ++ ·)

theorem behindPiece_plain {q : Place} (plain : piece.span number = none) :
    behindPiece number strict rest piece q =
      placeFrom (number + piece.breaks) q (piece.strictBehind strict) rest := by
  rw [behindPiece, plain]
  cases found : placeFrom (number + piece.breaks) q (piece.strictBehind strict) rest <;>
    simp [Except.map]

/-- A sign in a line only nests brackets. -/
theorem restFrom_sign_of_stands {c : Char} (stands : (Piece.sign c).Stands strict cs)
    (within : c ≠ '\n') (unified : '\r' ∉ cs) :
    restFrom number state (c :: cs) =
      restFrom number { state with level := state.level + depth c } cs := by
  have unnested (level : depth c = 0) : { state with level := state.level + depth c } = state := by
    rw [level, Int.add_zero]
  by_cases opens : IsQuote c
  · rw [Piece.Stands, if_pos opens] at stands
    have level : depth c = 0 := by
      rcases opens with rfl | rfl <;> rfl
    rw [unnested level]
    exact restFrom_quote opens unified stands
  rw [Piece.Stands, if_neg opens] at stands
  by_cases escape : c = '\\'
  · subst escape
    rw [if_pos rfl] at stands
    rw [unnested rfl]
    exact restFrom_backslash stands unified
  · rw [if_neg escape] at stands
    exact restFrom_sign within stands opens escape

/-- A text with its mark, of one line or of several. -/
theorem restFrom_text {mark : List Char} (number : Nat) (p : Place)
    (stands : (Piece.text mark quoted).Stands strict rest) (unified : '\r' ∉ quoted)
    (inside : p.spot = .inside) :
    restFrom number (p.state strict) (mark ++ quoted ++ rest) =
      behindPiece number strict rest (.text mark quoted) p := by
  obtain ⟨isMark, text⟩ := stands
  have breaks : (Piece.text mark quoted).breaks = quoted.count '\n' := by
    simp [Piece.breaks, Piece.chars, List.count_eq_zero.mpr (newline_not_mem_mark isMark)]
  have here (number : Nat) (strict : Bool) :
      placeFrom number p strict rest = restFrom number (p.state strict) rest := by
    rw [placeFrom, inside]
  rw [List.append_assoc, restFrom_mark isMark]
  by_cases several : '\n' ∈ quoted
  · have freed : (Piece.text mark quoted).strictBehind strict = false := by
      simp [Piece.strictBehind, several]
    have found : quoted.count '\n' ≠ 0 := (List.count_pos_iff.mpr several).ne'
    rw [restFrom_text_lines text unified several rfl, behindPiece, freed, Piece.span, breaks,
      if_neg found, here]
    rfl
  · have stays : (Piece.text mark quoted).strictBehind strict = strict := by
      simp [Piece.strictBehind, several]
    have none := List.count_eq_zero.mpr several
    have plain : (Piece.text mark quoted).span number = .none := by simp [Piece.span, breaks, none]
    rw [restFrom_text_line text unified several, behindPiece_plain plain, stays, breaks, none, here]
    rfl

/-- Inside of a line the scan passes a piece. -/
theorem restFrom_piece (number : Nat) (p : Place) (stands : piece.Stands strict rest)
    (unified : '\r' ∉ piece.chars ++ rest) (inside : p.spot = .inside) :
    restFrom number (p.state strict) (piece.chars ++ rest) =
      behindPiece number strict rest piece (p.behind piece) := by
  obtain ⟨unified, unified'⟩ : '\r' ∉ piece.chars ∧ '\r' ∉ rest := by simpa using unified
  obtain ⟨spot, level, columns⟩ := p
  subst inside
  cases piece with
  | sign c =>
    rw [behindPiece_plain rfl]
    by_cases newline : c = '\n'
    · subst newline
      exact restFrom_newline.trans (linesFrom_nextLine _ _ _ unified')
    · have one : (Piece.sign c).breaks = 0 := by simp [Piece.breaks, Piece.chars, newline]
      rw [one, Place.behind, if_neg newline]
      exact restFrom_sign_of_stands stands newline unified'
  | joint =>
    rw [behindPiece_plain rfl]
    exact restFrom_joint
  | comment note =>
    have one : (Piece.comment note).breaks = 0 := by
      simp [Piece.breaks, Piece.chars, List.count_eq_zero, stands.1]
    rw [behindPiece_plain rfl, one]
    exact restFrom_comment stands.1 (fun member => unified (List.mem_cons_of_mem _ member)) stands.2
  | text mark quoted =>
    exact restFrom_text number _ stands (fun member => unified (List.mem_append_right _ member)) rfl
  | broken cs =>
    rw [behindPiece_plain rfl]
    refine (restFrom_broken ?_ unified rfl).trans
      (linesFrom_nextLine _ ⟨.inside, level, columns⟩ true unified')
    exact stands

/-- Whether a character at a margin begins a statement. -/
def Begins (c : Char) : Prop :=
  c ∉ [' ', '\t', '\x0c', '\n', '#']

theorem IsQuote.begins {c : Char} (opens : IsQuote c) : Begins c := by
  rcases opens with rfl | rfl <;> simp [Begins]

/-- A text in a row, whole or not, begins with a quote or with a letter of its mark. -/
theorem Piece.Stands.begins (stands : piece.Stands strict rest)
    (compound : ∀ c, piece ≠ .sign c) (code : ∀ note, piece ≠ .comment note) :
    ∃ c cs, piece.chars = c :: cs ∧ Begins c := by
  cases piece with
  | sign c => exact (compound c rfl).elim
  | comment note => exact (code note rfl).elim
  | joint => exact ⟨'\\', ['\n'], rfl, by simp [Begins]⟩
  | text mark quoted =>
    obtain ⟨isMark, text⟩ := stands
    cases mark with
    | nil => cases text with | single opens | triple opens => exact ⟨_, _, rfl, opens.begins⟩
    | cons c mark =>
      have isMark := isMark.resolve_left (List.cons_ne_nil c mark)
      have letter := toLower_of_mem_mark isMark c List.mem_cons_self
      refine ⟨c, mark ++ quoted, rfl, fun member => ?_⟩
      simp only [List.mem_cons, List.not_mem_nil, or_false] at member
      rcases member with rfl | rfl | rfl | rfl | rfl <;> exact absurd letter (by decide)
  | broken cs => cases stands with | single opens | triple opens => exact ⟨_, _, rfl, opens.begins⟩

theorem Piece.Stands.chars_ne_nil (stands : piece.Stands strict rest) : piece.chars ≠ [] := by
  intro empty
  obtain ⟨_, _, first, _⟩ :=
    stands.begins (by rintro c rfl; cases empty) (by rintro note rfl; cases empty)
  simp [first] at empty

/-- Where a statement may begin, the indentation of its first line is checked. -/
theorem placeFrom_begins {c : Char} (begins : Begins c) :
    placeFrom number p strict (c :: cs) =
      match p.entered with
      | none => .error .indentation
      | some q => restFrom number (q.state strict) (c :: cs) := by
  simp only [Begins, List.mem_cons, List.not_mem_nil, or_false, not_or] at begins
  obtain ⟨space, tab, feed, within, code⟩ := begins
  obtain ⟨spot, level, columns⟩ := p
  cases spot with
  | margin column =>
    have here : columnOf column (c :: cs) = (column, c :: cs) := by
      simp [columnOf, space, tab, feed]
    simp only [placeFrom, marginFrom, here, code, within, or_self, if_false, Place.entered]
    cases found : adjust column columns <;> simp [Place.state, found]
  | inside => rfl
  | joint => exact linesFrom_continued rfl (.inr rfl) (List.cons_ne_nil c cs)

/-- The scan makes of a row what it makes of the first piece and of those behind it. -/
theorem placeFrom_piece (stands : piece.Stands strict rest) (unified : '\r' ∉ piece.chars ++ rest) :
    placeFrom number p strict (piece.chars ++ rest) =
      match p.step piece with
      | none => .error .indentation
      | some q => behindPiece number strict rest piece q := by
  obtain ⟨spot, level, columns⟩ := p
  have entered (columns : List Nat) :=
    restFrom_piece number ⟨.inside, level, columns⟩ stands unified rfl
  cases spot with
  | inside => exact entered columns
  | joint =>
    have present : piece.chars ++ rest ≠ [] := by simp [stands.chars_ne_nil]
    exact (linesFrom_continued rfl (.inr rfl) present).trans (entered columns)
  | margin column =>
    have statement {c : Char} {cs : List Char} (first : piece.chars = c :: cs) (begins : Begins c) :
        placeFrom number ⟨.margin column, level, columns⟩ strict (piece.chars ++ rest) =
          match (Place.entered ⟨.margin column, level, columns⟩).map (·.behind piece) with
          | none => .error .indentation
          | some q => behindPiece number strict rest piece q := by
      rw [first, List.cons_append, placeFrom_begins begins, ← List.cons_append, ← first]
      simp only [Place.entered]
      cases adjust column columns with
      | none => rfl
      | some columns => exact entered columns
    cases piece with
    | sign c =>
      by_cases begins : Begins c
      · refine (statement rfl begins).trans ?_
        have step : Place.step ⟨.margin column, level, columns⟩ (.sign c) =
            (Place.entered ⟨.margin column, level, columns⟩).map (·.behind (.sign c)) := by
          unfold Place.step
          split <;> simp_all [Begins]
        rw [step]
      · simp only [Begins, List.mem_cons, List.not_mem_nil, or_false, Classical.not_not] at begins
        rcases begins with rfl | rfl | rfl | rfl | rfl
        · exact (behindPiece_plain (rfl : (Piece.sign ' ').span number = none)).symm
        · exact (behindPiece_plain (rfl : (Piece.sign '\t').span number = none)).symm
        · exact (behindPiece_plain (rfl : (Piece.sign '\x0c').span number = none)).symm
        · exact entered columns
        · simp [Piece.Stands, IsQuote] at stands
    | comment note => exact entered columns
    | joint | text _ _ | broken _ =>
      obtain ⟨c, cs, first, begins⟩ := stands.begins (by simp) (by simp)
      exact statement first begins

theorem placeFrom_nil : placeFrom number p strict [] =
    if p.level = 0 ∧ p.spot ≠ .joint then .ok [] else .error .unfinished := by
  obtain ⟨spot, level, columns⟩ := p
  have scanned (joined : Bool) (n : Nat) : scanLines n ⟨level, joined, none, strict, columns⟩ [] =
      if level = 0 ∧ joined = false then .ok [] else .error .unfinished := by
    cases joined <;> by_cases level = 0 <;> simp [scanLines, *]
  cases spot with
  | margin column | inside => exact (scanned false (number + 1)).trans (by simp)
  | joint => exact (scanned true number).trans (by simp)

/-- The scan accepts a row if it keeps the rules for brackets and indentations, and finds its texts. -/
theorem Cut.placeFrom_eq_ok_iff {pieces : List Piece} {found : List (Nat × Nat)}
    (cut : Cut strict cs pieces) (unified : '\r' ∉ cs) :
    placeFrom number p strict cs = .ok found ↔ p.Fits pieces ∧ found = spans number pieces := by
  induction cut generalizing number p found with
  | nil =>
    rw [placeFrom_nil]
    split <;> simp_all [Place.Fits, spans, eq_comm]
  | @cons strict piece rest pieces stands _ ih =>
    rw [placeFrom_piece stands unified]
    cases next : p.step piece with
    | none => simp [Place.Fits, next]
    | some q =>
      have later {found : List (Nat × Nat)} :
          placeFrom (number + piece.breaks) q (piece.strictBehind strict) rest = .ok found ↔
            q.Fits pieces ∧ found = spans (number + piece.breaks) pieces :=
        ih fun member => unified (List.mem_append_right _ member)
      simp only [Place.Fits, next, spans, behindPiece, Option.some.injEq, exists_eq_left']
      cases scanned : placeFrom (number + piece.breaks) q (piece.strictBehind strict) rest with
      | error fault =>
        have unfit : ¬ q.Fits pieces := fun fits => by
          have accepted := later.mpr ⟨fits, rfl⟩
          rw [scanned] at accepted
          cases accepted
        simp [Except.map, unfit]
      | ok others =>
        obtain ⟨fits, rfl⟩ := later.mp scanned
        simp [Except.map, fits, eq_comm]

/-! ### Every piece is found -/

section Finding

variable {quote : Char}

/-- Whether a piece stands at the front of some code. -/
def HasPiece (strict : Bool) (cs : List Char) : Prop :=
  ∃ piece rest, cs = Piece.chars piece ++ rest ∧ piece.Stands strict rest

/-- A text that goes on below its first line is whole, breaks off or leaves the code unfinished. -/
theorem hasPiece_opening {triple : Bool} {line : List Char} (opening : OpeningLine quote triple line)
    (unified : '\r' ∉ line ++ '\n' :: cs) (number : Nat) (q : Place) :
    HasPiece strict (line ++ '\n' :: cs) ∨
      restFrom number (q.state strict) (line ++ '\n' :: cs) = .error .unfinished := by
  obtain ⟨unified, unified'⟩ : '\r' ∉ line ∧ '\r' ∉ cs := by simpa using unified
  have below := restFrom_opening opening unified number (q.state strict) cs
  have inText : ((q.state strict).opened ⟨quote, triple, number⟩).text = some ⟨quote, triple, number⟩ :=
    rfl
  rcases ends_or_breaksOff opening.isQuote inText unified' (number + 1) with
    ⟨tail, rest, rfl, ends⟩ | ⟨joins, tail, rest, rfl, breaks⟩ | unfinished
  · exact .inl ⟨.text [] (line ++ '\n' :: tail), rest, by simp [Piece.chars], .inl rfl,
      opening.isText ends⟩
  · exact .inl ⟨.broken (line ++ '\n' :: tail), rest, by simp [Piece.chars],
      isBroken_iff.mpr ⟨quote, triple, line, tail, opening, joins, breaks, rfl⟩⟩
  · exact .inr (below.trans unfinished)

theorem hasPiece_triple (opens : IsQuote quote) (unified : '\r' ∉ cs) (number : Nat) (q : Place) :
    HasPiece strict (quote :: quote :: quote :: cs) ∨
      restFrom number (q.state strict) (quote :: quote :: quote :: cs) = .error .unfinished := by
  have onLine {line : List Char} (one : '\n' ∉ line) (closes : ¬ LeavesOpen quote true line)
      (rest : List Char) : HasPiece strict (quote :: quote :: quote :: (line ++ rest)) := by
    obtain ⟨tail, behind, more, rfl⟩ : ∃ tail, Closing quote true tail ∧ tail <+: line := by
      simpa [LeavesOpen, one] using closes
    refine ⟨.text [] (quote :: quote :: quote :: tail), more ++ rest, by simp [Piece.chars], .inl rfl,
      .triple opens behind fun _ first middle last same => ?_⟩
    simp [same] at one
  have cr : '\r' ≠ quote := (opens.ne (by decide)).symm
  rcases line_cases cs with one | ⟨line, others, one, rfl⟩
  · by_cases leaves : LeavesOpen quote true cs
    · exact .inr (restFrom_triple_end opens leaves)
    · left
      simpa using onLine one leaves []
  · by_cases leaves : LeavesOpen quote true line
    · exact hasPiece_opening (.triple opens leaves) (by simp_all) number q
    · exact .inl (onLine one leaves _)

theorem hasPiece_single (opens : IsQuote quote) (unified : '\r' ∉ cs) (two : ¬ [quote, quote] <+: cs)
    (number : Nat) (q : Place) : HasPiece strict (quote :: cs) ∨
      restFrom number (q.state strict) (quote :: cs) = .error .unfinished := by
  by_cases closes : ∃ inner, Inner quote inner ∧ inner ++ [quote] <+: cs
  · obtain ⟨inner, within, rest, rfl⟩ := closes
    exact .inl ⟨.text [] (quote :: (inner ++ [quote])), rest, by simp [Piece.chars], .inl rfl,
      .single opens (.closed within) two⟩
  by_cases joined : ∃ inner, Inner quote inner ∧ inner ++ ['\\', '\n'] <+: cs
  · obtain ⟨inner, within, others, rfl⟩ := joined
    have cr : '\r' ≠ quote := (opens.ne (by decide)).symm
    simpa using hasPiece_opening (.single opens within) (by simp_all) number q
  · refine .inl ⟨.sign quote, cs, rfl, ?_⟩
    rw [Piece.Stands, if_pos opens]
    exact fun inner within => ⟨fun early => closes ⟨inner, within, early⟩,
      fun early => joined ⟨inner, within, early⟩⟩

/-- Where a statement goes on, a piece stands unless the code is unfinished. -/
theorem hasPiece (opens : IsQuote quote) (unified : '\r' ∉ cs) (number : Nat) (q : Place) :
    HasPiece strict (quote :: cs) ∨
      restFrom number (q.state strict) (quote :: cs) = .error .unfinished := by
  by_cases two : [quote, quote] <+: cs
  · obtain ⟨cs, rfl⟩ := two
    exact hasPiece_triple opens (by simp_all) number q
  · exact hasPiece_single opens unified two number q

end Finding

/-- What stands in front of code without a text. -/
theorem hasPiece_plain {c : Char} (bare : ¬ IsQuote c) : HasPiece strict (c :: cs) := by
  by_cases code : c = '#'
  · subst code
    rcases line_cases cs with one | ⟨line, rest, one, rfl⟩
    · exact ⟨.comment cs, [], by simp [Piece.chars], one, .inl rfl⟩
    · exact ⟨.comment line, '\n' :: rest, by simp [Piece.chars], one, .inr rfl⟩
  by_cases escape : c = '\\'
  · subst escape
    by_cases joint : cs.head? = some '\n'
    · obtain ⟨rest, rfl⟩ := List.head?_eq_some_iff.mp joint
      exact ⟨.joint, rest, rfl, trivial⟩
    · exact ⟨.sign '\\', cs, rfl, by simpa [Piece.Stands, IsQuote] using joint⟩
  · exact ⟨.sign c, cs, rfl, by simp [Piece.Stands, bare, escape, code]⟩

/-- Code that the scan accepts is a row of pieces. -/
theorem exists_cut {found : List (Nat × Nat)} (unified : '\r' ∉ cs)
    (scanned : placeFrom number p strict cs = .ok found) : ∃ pieces, Cut strict cs pieces := by
  induction bound : cs.length using Nat.strong_induction_on generalizing cs number p strict found with
  | _ n ih =>
    -- A piece is never empty, so less code stands behind it, which the scan accepts as well.
    have onward (has : HasPiece strict cs) : ∃ pieces, Cut strict cs pieces := by
      obtain ⟨piece, rest, rfl, stands⟩ := has
      rw [placeFrom_piece stands unified] at scanned
      cases next : p.step piece with
      | none => simp [next] at scanned
      | some q =>
        simp only [next, behindPiece] at scanned
        cases behind : placeFrom (number + piece.breaks) q (piece.strictBehind strict) rest with
        | error => simp [behind, Except.map] at scanned
        | ok others =>
          have present := List.length_pos_iff.mpr stands.chars_ne_nil
          obtain ⟨pieces, cut⟩ := ih rest.length (by simp [← bound, present])
            (fun member => unified (List.mem_append_right _ member)) behind rfl
          exact ⟨piece :: pieces, .cons stands cut⟩
    cases cs with
    | nil => exact ⟨[], .nil⟩
    | cons c cs =>
      by_cases opens : IsQuote c
      · rw [placeFrom_begins opens.begins] at scanned
        cases entered : p.entered with
        | none => simp [entered] at scanned
        | some q =>
          refine onward ((hasPiece opens (by simp_all) number q).resolve_right fun unfinished => ?_)
          simp [entered, unfinished] at scanned
      · exact onward (hasPiece_plain opens)

/-- The scan accepts code that is a row of pieces which keep the rules for brackets and indentations,
and no other, and finds the texts of several lines in the row. -/
theorem textSpans_eq_ok_iff {code : String} (unified : '\r' ∉ code.toList) (found : List (Nat × Nat)) :
    textSpans code = .ok found ↔
      ∃ pieces, Tokenized code.toList pieces ∧ found = spans 1 pieces := by
  have scanned : textSpans code = placeFrom 1 .start false code.toList :=
    (linesFrom_margin rfl rfl rfl unified : linesFrom 1 (Place.start.state false) code.toList = _)
  rw [scanned]
  constructor
  · intro ok
    obtain ⟨pieces, cut⟩ := exists_cut unified ok
    obtain ⟨fits, same⟩ := (cut.placeFrom_eq_ok_iff unified).mp ok
    exact ⟨pieces, ⟨cut, fits⟩, same⟩
  · rintro ⟨pieces, ⟨cut, fits⟩, same⟩
    exact (cut.placeFrom_eq_ok_iff unified).mpr ⟨fits, same⟩

end ProbeWeave.Weaving.Indent
