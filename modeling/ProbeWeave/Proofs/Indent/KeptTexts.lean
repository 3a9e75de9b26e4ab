import Mathlib
import ProbeWeave.Outcome
import ProbeWeave.Proofs.Indent.PieceByPiece

/-! # Texts in indented code

The scan numbers lines by newlines, while the lines to indent are also cut at the other breaks. In
code without those the two agree, and a text stands on the lines that the scan has found for it. All
of them but the first are left as they are, and what the first one gets stands in front of the text,
so the characters of the text are in the indented code in a row as before.
-/

namespace ProbeWeave.Weaving.Indent

variable {line cs : List Char}

/-! ### The lines of code -/

/-- Lines one below the other, each with a break. -/
def stacked (lines : List String) : List Char :=
  lines.flatMap fun line => line.toList ++ ['\n']

/-- The lines of a text, given its characters. -/
def linesOf (cs : List Char) : List String :=
  (Text.cutLines Text.isTextBreak cs).map fun line =>
    String.ofList (Text.dropBreak Text.isTextBreak line)

theorem cutLines_line (plain : ∀ c ∈ line, Text.isTextBreak c = false) (cs : List Char) :
    Text.cutLines Text.isTextBreak (line ++ '\n' :: cs) =
      (line ++ ['\n']) :: Text.cutLines Text.isTextBreak cs := by
  induction line with
  | nil => simp [Text.cutLines, Text.isTextBreak]
  | cons c line ih =>
    obtain ⟨here, plain⟩ := List.forall_mem_cons.mp plain
    simp [Text.cutLines, here, ih plain]

theorem cutLines_last (plain : ∀ c ∈ line, Text.isTextBreak c = false) (present : line ≠ []) :
    Text.cutLines Text.isTextBreak line = [line] := by
  induction line with
  | nil => exact (present rfl).elim
  | cons c line ih =>
    obtain ⟨here, plain⟩ := List.forall_mem_cons.mp plain
    cases line with
    | nil => simp [Text.cutLines, here]
    | cons d line =>
      rw [Text.cutLines, ih plain (List.cons_ne_nil d line)]
      simp [here]

theorem dropBreak_line (plain : ∀ c ∈ line, Text.isTextBreak c = false) :
    Text.dropBreak Text.isTextBreak (line ++ ['\n']) = line ∧
      Text.dropBreak Text.isTextBreak line = line := by
  have plain : ∀ c ∈ line.reverse, Text.isTextBreak c = false := by simpa using plain
  have same := line.reverse_reverse
  rw [Text.dropBreak, Text.dropBreak, List.reverse_append]
  generalize line.reverse = back at plain same
  subst same
  cases back with
  | nil => exact ⟨rfl, rfl⟩
  | cons c back =>
    have here := plain c (by simp)
    have newline : c ≠ '\n' := fun same => absurd (same ▸ here) (by decide)
    have cr : c ≠ '\r' := fun same => absurd (same ▸ here) (by decide)
    have ends : Text.isTextBreak '\n' = true := by decide
    simp [here, newline, cr, ends]

theorem linesOf_line (plain : ∀ c ∈ line, Text.isTextBreak c = false) (cs : List Char) :
    linesOf (line ++ '\n' :: cs) = String.ofList line :: linesOf cs := by
  rw [linesOf, cutLines_line plain, List.map_cons, (dropBreak_line plain).1, linesOf]

theorem linesOf_last (plain : ∀ c ∈ line, Text.isTextBreak c = false) (present : line ≠ []) :
    linesOf line = [String.ofList line] := by
  rw [linesOf, cutLines_last plain present, List.map_singleton, (dropBreak_line plain).2]

/-- Whether newlines are the only characters that break lines. -/
def OnlyNewlines (cs : List Char) : Prop :=
  ∀ c ∈ cs, Text.isTextBreak c = true → c = '\n'

theorem OnlyNewlines.plain (only : OnlyNewlines cs) (inside : line ⊆ cs) (one : '\n' ∉ line) :
    ∀ c ∈ line, Text.isTextBreak c = false := fun c member => by
  by_contra breaks
  have newline := only c (inside member) (by simpa using breaks)
  exact one (newline ▸ member)

theorem OnlyNewlines.behind_line (only : OnlyNewlines (line ++ '\n' :: cs)) : OnlyNewlines cs :=
  fun c member => only c (List.mem_append_right _ (List.mem_cons_of_mem _ member))

theorem stacked_cons (line : String) (lines : List String) :
    stacked (line :: lines) = line.toList ++ '\n' :: stacked lines := by
  simp [stacked]

/-- The first lines of the code, as many as a part at its front has. -/
theorem stacked_take {part rest : List Char} (only : OnlyNewlines (part ++ rest)) (present : part ≠ [])
    (ends : part.getLast? ≠ some '\n') :
    ∃ back, stacked ((linesOf (part ++ rest)).take (part.count '\n' + 1)) = part ++ back := by
  induction part using line_induction with
  | last line one =>
    rw [List.count_eq_zero.mpr one]
    rcases line_cases rest with one' | ⟨line', rest, one', rfl⟩
    · rw [linesOf_last (only.plain (List.Subset.refl _) (by simp [one, one'])) (by simp [present])]
      exact ⟨rest ++ ['\n'], by simp [stacked]⟩
    · have inside : line ++ line' ⊆ line ++ (line' ++ '\n' :: rest) := by simp
      rw [← List.append_assoc, linesOf_line (only.plain inside (by simp [one, one']))]
      exact ⟨line' ++ ['\n'], by simp [stacked]⟩
  | line line part one ih =>
    have present : part ≠ [] := by
      rintro rfl
      simp at ends
    have ends : part.getLast? ≠ some '\n' := fun last => ends (by simp [List.getLast?_cons, last])
    rw [List.append_assoc, List.cons_append] at only ⊢
    have inside : line ⊆ line ++ '\n' :: (part ++ rest) := by simp
    obtain ⟨back, same⟩ := ih only.behind_line present ends
    rw [linesOf_line (only.plain inside one), count_line one, List.take_succ_cons, stacked_cons, same]
    exact ⟨back, by simp⟩

/-- The lines on which a part of the code stands, first to last. -/
theorem stacked_part {front part rest : List Char} (only : OnlyNewlines (front ++ (part ++ rest)))
    (present : part ≠ []) (ends : part.getLast? ≠ some '\n') :
    ∃ before back, '\n' ∉ before ∧
      stacked (((linesOf (front ++ (part ++ rest))).drop (front.count '\n')).take
        (part.count '\n' + 1)) = before ++ (part ++ back) := by
  induction front using line_induction with
  | last line one =>
    have ends' : (line ++ part).getLast? ≠ some '\n' := by
      rwa [List.getLast?_append_of_ne_nil _ present]
    rw [← List.append_assoc] at only ⊢
    obtain ⟨back, same⟩ := stacked_take only (by simp [present]) ends'
    refine ⟨line, back, one, ?_⟩
    rw [List.count_append, List.count_eq_zero.mpr one, Nat.zero_add] at same
    rw [List.count_eq_zero.mpr one, List.drop_zero, same, List.append_assoc]
  | line line front one ih =>
    rw [List.append_assoc, List.cons_append] at only ⊢
    have inside : line ⊆ line ++ '\n' :: (front ++ (part ++ rest)) := by simp
    rw [linesOf_line (only.plain inside one), count_line one, List.drop_succ_cons]
    exact ih only.behind_line

/-! ### The lines of texts -/

theorem continues_span_iff (number k : Nat) (piece : Piece) :
    continues (piece.span number).toList k = true ↔
      ∃ mark quoted, piece = .text mark quoted ∧ number < k ∧ k ≤ number + piece.breaks := by
  cases piece with
  | text mark quoted =>
    by_cases one : (Piece.text mark quoted).breaks = 0 <;> simp [Piece.span, one, continues]
  | _ => simp [Piece.span, continues]

theorem continues_spans_iff (number k : Nat) (pieces : List Piece) :
    continues (spans number pieces) k = true ↔
      ∃ before mark quoted after, pieces = before ++ .text mark quoted :: after ∧
        number + (before.flatMap Piece.chars).count '\n' < k ∧
        k ≤ number + (before.flatMap Piece.chars).count '\n' + (Piece.text mark quoted).breaks := by
  induction pieces generalizing number with
  | nil => simp [spans, continues]
  | cons piece pieces ih =>
    have split : continues (spans number (piece :: pieces)) k = true ↔
        continues (piece.span number).toList k = true ∨
          continues (spans (number + piece.breaks) pieces) k = true := by
      simp [continues, spans]
    rw [split, ih, continues_span_iff]
    constructor
    · rintro (⟨mark, quoted, rfl, first, last⟩ | ⟨before, mark, quoted, after, rfl, first, last⟩)
      · exact ⟨[], mark, quoted, pieces, rfl, by simpa using first, by simpa using last⟩
      · refine ⟨piece :: before, mark, quoted, after, rfl, ?_⟩
        simp only [List.flatMap_cons, List.count_append]
        rw [Piece.breaks] at first last
        omega
    · rintro ⟨before, mark, quoted, after, same, first, last⟩
      cases before with
      | nil =>
        obtain ⟨rfl, rfl⟩ := List.cons.inj same
        exact .inl ⟨mark, quoted, rfl, by simpa using first, by simpa using last⟩
      | cons _ before =>
        obtain ⟨rfl, rfl⟩ := List.cons.inj same
        refine .inr ⟨before, mark, quoted, after, rfl, ?_⟩
        simp only [List.flatMap_cons, List.count_append] at first last
        rw [Piece.breaks]
        omega

theorem lineBehind_append (before : List Piece) (piece : Piece) :
    lineBehind (before ++ [piece]) = lineBehind before + piece.breaks := by
  simp [lineBehind, Piece.breaks, Nat.add_assoc]

/-- The scan and the row agree on the lines behind the first one of a text. -/
theorem continues_spans_one_iff (pieces : List Piece) (k : Nat) :
    continues (spans 1 pieces) k = true ↔ Continues pieces k := by
  simp only [continues_spans_iff, Continues, lineBehind_append]
  rfl

instance (pieces : List Piece) : DecidablePred (Continues pieces) := fun k =>
  decidable_of_iff _ (continues_spans_one_iff pieces k)

/-! ### Indented lines -/

variable {indentation : String} {pieces : List Piece}

/-- A line as it is or indented. -/
def placed (indentation : String) (pieces : List Piece) (i : Nat) (line : String) : String :=
  if line = "" ∨ Continues pieces (i + 1) then line else indentation ++ line

theorem mapIdx_part {α : Type} (f : Nat → α → α) (lines : List α) (m n : Nat) :
    ((lines.mapIdx f).drop m).take n = ((lines.drop m).take n).mapIdx fun i => f (m + i) := by
  refine List.ext_getElem? fun i => ?_
  simp only [List.getElem?_take, List.getElem?_drop, List.getElem?_mapIdx]
  split <;> rfl

/-- Lines that all continue a text, the first of them aside, move as a whole. -/
theorem stacked_placed (lines : List String) (m n : Nat)
    (continued : ∀ i, m < i → i ≤ m + n → Continues pieces (i + 1)) :
    ∃ shift, (shift = [] ∨ shift = indentation.toList) ∧
      stacked (((lines.mapIdx (placed indentation pieces)).drop m).take (n + 1)) =
        shift ++ stacked ((lines.drop m).take (n + 1)) := by
  rw [mapIdx_part]
  have short : ((lines.drop m).take (n + 1)).length ≤ n + 1 := List.length_take_le _ _
  generalize (lines.drop m).take (n + 1) = part at short
  cases part with
  | nil => exact ⟨[], .inl rfl, rfl⟩
  | cons line part =>
    have same : part.mapIdx (fun i => placed indentation pieces (m + (i + 1))) = part := by
      refine List.ext_getElem? fun i => ?_
      rw [List.getElem?_mapIdx]
      cases found : part[i]? with
      | none => rfl
      | some line =>
        have bound := (List.getElem?_eq_some_iff.mp found).1
        have reached : Continues pieces (m + (i + 1) + 1) := by
          rw [List.length_cons] at short
          exact continued (m + (i + 1)) (by omega) (by omega)
        simp [placed, reached]
    rw [List.mapIdx_cons, same, Nat.add_zero, stacked_cons, stacked_cons, placed]
    split
    · exact ⟨[], .inl rfl, rfl⟩
    · exact ⟨indentation.toList, .inr rfl, by simp⟩

theorem placed_eq_iff {line : String} (visible : indentation ≠ "") (i : Nat) :
    placed indentation pieces i line = line ↔ line = "" ∨ Continues pieces (i + 1) := by
  rw [placed]
  split <;> simp_all

/-! ### Texts in the indented code -/

theorem Cut.stands_of_mem {strict : Bool} {before after : List Piece} {piece : Piece}
    (cut : Cut strict cs (before ++ piece :: after)) : ∃ strict rest, piece.Stands strict rest ∧
      cs = before.flatMap Piece.chars ++ (piece.chars ++ rest) := by
  generalize whole : before ++ piece :: after = pieces at cut
  induction cut generalizing before with
  | nil => simp at whole
  | @cons strict first rest pieces stands _ ih =>
    cases before with
    | nil =>
      obtain ⟨rfl, rfl⟩ := List.cons.inj whole
      exact ⟨strict, rest, stands, rfl⟩
    | cons _ before =>
      obtain ⟨rfl, later⟩ := List.cons.inj whole
      obtain ⟨strict, rest, here, rfl⟩ := ih later
      exact ⟨strict, rest, here, by simp⟩

theorem indentCode_of_tokenized {code : String} (unified : '\r' ∉ code.toList)
    (tokenized : Tokenized code.toList pieces) (indentation : String) :
    indentCode code indentation =
      .ok ((Text.textLines code).mapIdx (placed indentation pieces)) := by
  rw [indentCode, (textSpans_eq_ok_iff unified _).mpr ⟨pieces, tokenized, rfl⟩]
  have same : (fun i line => if line.isEmpty || continues (spans 1 pieces) (i + 1) then line
      else indentation ++ line) = placed indentation pieces := by
    funext i line
    simp only [placed, Bool.or_eq_true, String.isEmpty_iff, continues_spans_one_iff]
  rw [← same]
  rfl

/-- The lines of a text, first to last, have its characters, and so have the lines that come of them. -/
theorem exists_text_placed {before after : List Piece} {mark quoted : List Char} {strict : Bool}
    (cut : Cut strict cs (before ++ .text mark quoted :: after)) (only : OnlyNewlines cs)
    (indentation : String) :
    ∃ front back shift, '\n' ∉ front ∧ (shift = [] ∨ shift = indentation.toList) ∧
      stacked (((linesOf cs).drop (lineBehind before - 1)).take (quoted.count '\n' + 1)) =
        front ++ (mark ++ quoted ++ back) ∧
      stacked ((((linesOf cs).mapIdx (placed indentation (before ++ .text mark quoted :: after))).drop
        (lineBehind before - 1)).take (quoted.count '\n' + 1)) =
        shift ++ front ++ (mark ++ quoted ++ back) := by
  obtain ⟨_, rest, ⟨isMark, text⟩, rfl⟩ := cut.stands_of_mem
  obtain ⟨quote, opens, last⟩ := text.getLast?
  have present : quoted ≠ [] := by
    rintro rfl
    simp at last
  have ends : (mark ++ quoted).getLast? ≠ some '\n' := by
    simp [List.getLast?_append_of_ne_nil _ present, last, opens.ne_newline]
  have breaks : (Piece.text mark quoted).chars.count '\n' = quoted.count '\n' := by
    simp [Piece.chars, List.count_eq_zero.mpr (newline_not_mem_mark isMark)]
  have first : lineBehind before - 1 = (before.flatMap Piece.chars).count '\n' :=
    Nat.add_sub_cancel_left ..
  have continued (i : Nat) (behind : lineBehind before - 1 < i)
      (upTo : i ≤ lineBehind before - 1 + quoted.count '\n') :
      Continues (before ++ .text mark quoted :: after) (i + 1) := by
    refine ⟨before, mark, quoted, after, rfl, ?_, ?_⟩
    · omega
    · have positive : 0 < lineBehind before := Nat.add_pos_left Nat.one_pos _
      rw [lineBehind_append, Piece.breaks, breaks]
      omega
  have part : (Piece.text mark quoted).chars ≠ [] := by simp [Piece.chars, present]
  obtain ⟨front, back, one, stands⟩ := stacked_part only part ends
  obtain ⟨shift, allowed, moved⟩ := stacked_placed _ _ _ continued
  rw [breaks, ← first] at stands
  refine ⟨front, back, shift, one, allowed, stands, moved.trans ?_⟩
  exact (congrArg (shift ++ ·) stands).trans (List.append_assoc ..).symm

/-- Code whose only line breaks are newlines can be indented if and only if it can be cut into pieces
that keep the rules for brackets and indentations. Then, whatever the cut, there are as many lines as
before; a line is left as it is if and only if it is empty or lies behind the first line of a text that
reaches it, and is indented otherwise; and the lines of a text, first to last, have its characters in a
row as before, only that all of it may have moved by the indentation of its first line. -/
theorem indentCode_keeps_texts (code indentation : String) (only : OnlyNewlines code.toList) :
    ((∃ pieces, Tokenized code.toList pieces) ↔ ∃ lines, indentCode code indentation = .ok lines) ∧
      ∀ pieces, Tokenized code.toList pieces → ∃ lines, indentCode code indentation = .ok lines ∧
        lines.length = (Text.textLines code).length ∧
        (∀ k line, (Text.textLines code)[k]? = some line →
          lines[k]? =
            some (if line = "" ∨ Continues pieces (k + 1) then line else indentation ++ line) ∧
          (indentation ≠ "" → (lines[k]? = some line ↔ line = "" ∨ Continues pieces (k + 1)))) ∧
        ∀ before mark quoted after, pieces = before ++ .text mark quoted :: after →
          ∃ front back shift, '\n' ∉ front ∧ (shift = [] ∨ shift = indentation.toList) ∧
            stacked (((Text.textLines code).drop (lineBehind before - 1)).take
              (quoted.count '\n' + 1)) = front ++ (mark ++ quoted ++ back) ∧
            stacked ((lines.drop (lineBehind before - 1)).take (quoted.count '\n' + 1)) =
              shift ++ front ++ (mark ++ quoted ++ back) := by
  have unified : '\r' ∉ code.toList := fun member => absurd (only _ member (by decide)) (by decide)
  constructor
  · constructor
    · rintro ⟨pieces, tokenized⟩
      exact ⟨_, indentCode_of_tokenized unified tokenized indentation⟩
    · rintro ⟨lines, indented⟩
      obtain ⟨found, scanned, -⟩ := Outcome.bind_eq_ok.mp indented
      obtain ⟨pieces, tokenized, -⟩ := (textSpans_eq_ok_iff unified found).mp scanned
      exact ⟨pieces, tokenized⟩
  · intro pieces tokenized
    refine ⟨_, indentCode_of_tokenized unified tokenized indentation, List.length_mapIdx, ?_, ?_⟩
    · intro k line found
      rw [List.getElem?_mapIdx, found, Option.map_some]
      refine ⟨rfl, fun visible => ?_⟩
      rw [Option.some.injEq, placed_eq_iff visible]
    · rintro before mark quoted after rfl
      exact exists_text_placed tokenized.1 only indentation

namespace SharedLine

/-- Two texts share a line. One has an empty line in it, the other a quote of the kind that closes the
first. -/
def source : String := "'''a\n\n''';\"\"\"'\n\"\"\"\nx"

def first : List Char := ['\'', '\'', '\'', 'a', '\n', '\n', '\'', '\'', '\'']

def second : List Char := ['"', '"', '"', '\'', '\n', '"', '"', '"']

def row : List Piece := [.text [] first, .sign ';', .text [] second, .sign '\n', .sign 'x']

def indented : List String := ["  '''a", "", "''';\"\"\"'", "\"\"\"", "  x"]

theorem toList_source : source.toList = first ++ ';' :: (second ++ ['\n', 'x']) :=
  rfl

theorem onlyNewlines : OnlyNewlines source.toList := by
  simp [OnlyNewlines, toList_source, first, second, Text.isTextBreak]

theorem isText_first (rest : List Char) : IsText false rest first := by
  refine .triple (.inr rfl) ?_ (by simp)
  exact .plain (by decide) (by decide) (.plain (by decide) (by decide)
    (.plain (by decide) (by decide) .closed))

theorem isText_second (rest : List Char) : IsText false rest second := by
  refine .triple (.inl rfl) ?_ (by simp)
  exact .plain (by decide) (by decide) (.plain (by decide) (by decide) .closed)

theorem tokenized : Tokenized source.toList row := by
  have sign {c : Char} {rest : List Char} {pieces : List Piece}
      (plain : ¬ IsQuote c ∧ c ≠ '\\' ∧ c ≠ '#') (behind : Cut false rest pieces) :
      Cut false (c :: rest) (.sign c :: pieces) :=
    @Cut.cons false (.sign c) rest pieces (by simp [Piece.Stands, plain]) behind
  have text {quoted rest : List Char} {pieces : List Piece} (quotes : IsText false rest quoted)
      (behind : Cut false rest pieces) : Cut false (quoted ++ rest) (.text [] quoted :: pieces) :=
    @Cut.cons false (.text [] quoted) rest pieces ⟨.inl rfl, quotes⟩ behind
  rw [toList_source]
  refine ⟨?_, ?_⟩
  · exact text (isText_first _) (sign (by decide) (text (isText_second _)
      (sign (by decide) (sign (by decide) .nil))))
  · exact ⟨_, rfl, _, rfl, _, rfl, _, rfl, _, rfl, rfl, by decide⟩

theorem indentCode_source : indentCode source "  " = .ok indented := by
  decide

theorem indentCode_keeps_sharedLine : OnlyNewlines source.toList ∧ Tokenized source.toList row ∧
    indentCode source "  " = .ok indented ∧
    (∀ k line, (Text.textLines source)[k]? = some line →
      (indented[k]? = some line ↔ line = "" ∨ Continues row (k + 1))) ∧
    ∃ front back shift, '\n' ∉ front ∧ (shift = [] ∨ shift = "  ".toList) ∧
      stacked (((Text.textLines source).drop 2).take 2) = front ++ (second ++ back) ∧
      stacked ((indented.drop 2).take 2) = shift ++ front ++ (second ++ back) := by
  obtain ⟨-, keeps⟩ := indentCode_keeps_texts source "  " onlyNewlines
  obtain ⟨lines, result, -, each, texts⟩ := keeps row tokenized
  obtain rfl : lines = indented := Except.ok.inj (result.symm.trans indentCode_source)
  refine ⟨onlyNewlines, tokenized, result, fun k line here => ?_, ?_⟩
  · exact (each k line here).2 (by decide)
  · exact texts [.text [] first, .sign ';'] [] second [.sign '\n', .sign 'x'] rfl

end SharedLine

end ProbeWeave.Weaving.Indent
