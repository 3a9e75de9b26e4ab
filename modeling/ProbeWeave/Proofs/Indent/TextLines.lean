import Mathlib
import ProbeWeave.Proofs.Indent.Pieces

/-! # Texts line by line

A scan that goes line by line asks of each line whether it closes the text that is open. Here the
texts are told that way too: an opening line, lines that leave the text open, and a last line that
closes it. Whether the lines have to be joined by backslashes is the same for all of them: always for
a text between single quotes, and at times for one between triple quotes.
-/

namespace ProbeWeave.Weaving.Indent

theorem IsQuote.ne {c d : Char} (quote : IsQuote c) (other : ¬ IsQuote d) : c ≠ d :=
  fun same => other (same ▸ quote)

theorem IsQuote.ne_backslash {c : Char} (quote : IsQuote c) : c ≠ '\\' :=
  quote.ne (by decide)

theorem IsQuote.ne_newline {c : Char} (quote : IsQuote c) : c ≠ '\n' :=
  quote.ne (by decide)

variable {quote : Char} {triple strict : Bool} {cs line rest tail : List Char}

theorem Inner.not_mem (inner : Inner quote cs) : '\n' ∉ cs := by
  induction inner with
  | nil => simp
  | plain _ _ within _ ih => simp [ih, Ne.symm within]
  | escaped within _ ih => simp [ih, Ne.symm within]

/-- Induction along the units of a text: a backslash takes the character behind it along. -/
@[elab_as_elim]
theorem unit_induction {motive : List Char → Prop} (nil : motive []) (alone : motive ['\\'])
    (escaped : ∀ c rest, motive rest → motive ('\\' :: c :: rest))
    (plain : ∀ c rest, c ≠ '\\' → motive rest → motive (c :: rest)) : ∀ cs, motive cs
  | [] => nil
  | [c] => if same : c = '\\' then same ▸ alone else plain c [] same nil
  | c :: d :: rest =>
    if same : c = '\\' then same ▸ escaped d rest (unit_induction nil alone escaped plain rest)
    else plain c (d :: rest) same (unit_induction nil alone escaped plain (d :: rest))

/-- A line closes a text between single quotes, leaves it open, or ends with a backslash of its own. -/
theorem inner_cases (quote : Char) (one : '\n' ∉ line) :
    (∃ cs front, Inner quote cs ∧ line = cs ++ quote :: front) ∨ Inner quote line ∨
      ∃ cs, Inner quote cs ∧ line = cs ++ ['\\'] := by
  induction line using unit_induction with
  | nil => exact .inr (.inl .nil)
  | alone => exact .inr (.inr ⟨[], .nil, rfl⟩)
  | escaped c line ih =>
    obtain ⟨within, one⟩ : '\n' ≠ c ∧ '\n' ∉ line := by simpa using one
    rcases ih one with ⟨cs, front, inner, rfl⟩ | inner | ⟨cs, inner, rfl⟩
    · exact .inl ⟨'\\' :: c :: cs, front, .escaped within.symm inner, rfl⟩
    · exact .inr (.inl (.escaped within.symm inner))
    · exact .inr (.inr ⟨'\\' :: c :: cs, .escaped within.symm inner, rfl⟩)
  | plain c line unescaped ih =>
    obtain ⟨within, one⟩ : '\n' ≠ c ∧ '\n' ∉ line := by simpa using one
    by_cases closes : c = quote
    · exact .inl ⟨[], line, .nil, by rw [closes, List.nil_append]⟩
    rcases ih one with ⟨cs, front, inner, rfl⟩ | inner | ⟨cs, inner, rfl⟩
    · exact .inl ⟨c :: cs, front, .plain closes unescaped within.symm inner, rfl⟩
    · exact .inr (.inl (.plain closes unescaped within.symm inner))
    · exact .inr (.inr ⟨c :: cs, .plain closes unescaped within.symm inner, rfl⟩)

/-! ### The end of a text on its line -/

theorem Inner.behindSingle_append (inner : Inner quote cs) (rest : List Char) :
    behindSingle quote (cs ++ rest) = behindSingle quote rest := by
  induction inner with
  | nil => rfl
  | plain other unescaped _ _ ih => simp [behindSingle, other, unescaped, ih]
  | escaped within _ ih => simp [behindSingle, within, ih]

theorem Inner.singleEnd_append (inner : Inner quote cs) (unified : '\r' ∉ cs) (rest : List Char) :
    singleEnd quote (cs ++ rest) = singleEnd quote rest := by
  induction inner with
  | nil => rfl
  | plain other unescaped within _ ih =>
    simp [singleEnd, other, unescaped, within, ih (by simp_all)]
  | @escaped c cs within _ ih =>
    obtain ⟨cr, unified⟩ : '\r' ≠ c ∧ '\r' ∉ cs := by simpa using unified
    simp [singleEnd, cr.symm, ih unified]

theorem behindTriple_cons {c : Char} (unescaped : c ≠ '\\') (cs : List Char) :
    behindTriple quote (c :: cs) =
      if [quote, quote, quote] <+: c :: cs then some (cs.drop 2) else behindTriple quote cs := by
  have three : [quote, quote, quote] <+: c :: cs ↔ c = quote ∧ cs.take 2 = [quote, quote] := by
    rw [List.cons_prefix_cons, List.prefix_iff_eq_take, eq_comm]
    simp [eq_comm]
  rw [behindTriple.eq_4 _ _ _ (fun _ _ same => (unescaped same).elim)
    (fun same => (unescaped same).elim)]
  simp [three]

theorem TripleTail.three_le_length (behind : TripleTail quote tail) : 3 ≤ tail.length := by
  induction behind with
  | closed => exact le_rfl
  | plain _ _ _ ih | escaped _ ih =>
    simp only [List.length_cons]
    omega

theorem TripleTail.behindTriple_append (behind : TripleTail quote tail) (opens : IsQuote quote)
    (one : '\n' ∉ tail) (rest : List Char) : behindTriple quote (tail ++ rest) = some rest := by
  induction behind with
  | closed => simp [behindTriple, opens.ne_backslash]
  | @plain c tail unescaped within behind ih =>
    have within : ¬ [quote, quote, quote] <+: c :: (tail ++ rest) := by
      intro early
      have room : [quote, quote, quote].length ≤ (c :: tail).length :=
        behind.three_le_length.trans (by simp)
      exact within (List.prefix_of_prefix_length_le early (List.prefix_append (c :: tail) rest) room)
    rw [List.cons_append, behindTriple_cons unescaped, if_neg within]
    exact ih (by simp_all)
  | @escaped c tail behind ih =>
    obtain ⟨within, one⟩ : '\n' ≠ c ∧ '\n' ∉ tail := by simpa using one
    simp [behindTriple, within.symm, ih one]

theorem TripleTail.behind_escape {c : Char} (behind : TripleTail quote ('\\' :: c :: tail))
    (opens : IsQuote quote) : TripleTail quote tail := by
  cases behind with
  | closed => exact (opens.ne_backslash rfl).elim
  | plain unescaped _ _ => exact (unescaped rfl).elim
  | escaped behind => exact behind

theorem TripleTail.behind_plain {c : Char} (behind : TripleTail quote (c :: tail))
    (unescaped : c ≠ '\\') : c :: tail = [quote, quote, quote] ∨ TripleTail quote tail := by
  cases behind with
  | closed => exact .inl rfl
  | plain _ _ behind => exact .inr behind
  | escaped _ => exact (unescaped rfl).elim

/-- No text between triple quotes goes on behind its end. -/
theorem TripleTail.eq_of_prefix {other : List Char} (behind : TripleTail quote tail)
    (unescaped : quote ≠ '\\') (behind' : TripleTail quote other) (front : tail <+: other) :
    tail = other := by
  induction behind generalizing other with
  | closed =>
    cases behind' with
    | closed => rfl
    | plain _ within _ => exact (within front).elim
    | escaped _ => exact (unescaped (List.cons_prefix_cons.mp front).1).elim
  | @plain c tail escape within behind ih =>
    cases behind' with
    | closed =>
      have short := front.length_le
      have long := behind.three_le_length
      simp at short
      omega
    | plain _ _ behind' =>
      rw [ih behind' (List.cons_prefix_cons.mp front).2, (List.cons_prefix_cons.mp front).1]
    | escaped _ => exact (escape (List.cons_prefix_cons.mp front).1).elim
  | @escaped c tail behind ih =>
    cases behind' with
    | closed => exact (unescaped (List.cons_prefix_cons.mp front).1.symm).elim
    | plain escape _ _ => exact (escape (List.cons_prefix_cons.mp front).1.symm).elim
    | escaped behind' =>
      obtain ⟨same, front⟩ := List.cons_prefix_cons.mp (List.cons_prefix_cons.mp front).2
      rw [same, ih behind' front]

/-! ### Lines that leave a text open -/

theorem Closing.ne_nil (closing : Closing quote triple tail) : tail ≠ [] := by
  cases triple with
  | false =>
    obtain ⟨cs, -, rfl⟩ := closing
    simp
  | true =>
    have room := TripleTail.three_le_length closing
    rintro rfl
    simp at room

theorem LeavesOpen.behind_escape {c : Char} (leaves : LeavesOpen quote true ('\\' :: c :: line)) :
    LeavesOpen quote true line :=
  ⟨fun member => leaves.1 (by simp [member]), fun _ closing front =>
    leaves.2 _ (TripleTail.escaped (c := c) closing) (by simpa using front)⟩

theorem LeavesOpen.behind_plain {c : Char} (leaves : LeavesOpen quote true (c :: line))
    (unescaped : c ≠ '\\') :
    ¬ [quote, quote, quote] <+: c :: line ∧ LeavesOpen quote true line := by
  have within := leaves.2 _ TripleTail.closed
  refine ⟨within, fun member => leaves.1 (by simp [member]), fun tail closing front => ?_⟩
  have front : c :: tail <+: c :: line := by simpa using front
  exact leaves.2 _ (TripleTail.plain unescaped (fun early => within (early.trans front)) closing) front

/-- What begins with a line but does not have its break begins on the line. -/
theorem prefix_of_prefix_line {cs line rest : List Char} (one : '\n' ∉ cs)
    (front : cs <+: line ++ '\n' :: rest) : cs <+: line := by
  rcases List.prefix_or_prefix_of_prefix front (List.prefix_append line _) with inside | ⟨more, rfl⟩
  · exact inside
  · cases more with
    | nil => simp
    | cons c more =>
      obtain ⟨rfl, -⟩ : c = '\n' ∧ _ := by simpa [List.cons_prefix_cons] using front
      simp at one

/-- Quotes that do not begin on a line do not begin there with its break either. -/
theorem not_prefix_line (opens : IsQuote quote) {c : Char}
    (within : ¬ [quote, quote, quote] <+: c :: line) (rest : List Char) :
    ¬ [quote, quote, quote] <+: c :: (line ++ '\n' :: rest) := fun early =>
  within (prefix_of_prefix_line (by simp [opens.ne_newline.symm]) early)

theorem behindTriple_of_leavesOpen (opens : IsQuote quote) (leaves : LeavesOpen quote true line) :
    behindTriple quote line = none ∧ behindTriple quote (line ++ ['\n']) = none := by
  induction line using unit_induction with
  | nil => simp [behindTriple]
  | alone => simp [behindTriple]
  | escaped c line ih =>
    have within : c ≠ '\n' := by rintro rfl; simpa using leaves.1
    simpa [behindTriple, within] using ih leaves.behind_escape
  | plain c line unescaped ih =>
    obtain ⟨within, leaves⟩ := leaves.behind_plain unescaped
    rw [List.cons_append, behindTriple_cons unescaped, behindTriple_cons unescaped, if_neg within,
      if_neg (not_prefix_line opens within [])]
    exact ih leaves

theorem behindSingle_closing (opens : IsQuote quote) (inner : Inner quote cs) (rest : List Char) :
    behindSingle quote (cs ++ quote :: rest) = some rest := by
  rw [inner.behindSingle_append]
  simp [behindSingle, opens.ne_backslash]

theorem leavesOpen_single_iff (opens : IsQuote quote) : LeavesOpen quote false line ↔
    Inner quote line ∨ ∃ cs, Inner quote cs ∧ line = cs ++ ['\\'] := by
  constructor
  · rintro ⟨one, leaves⟩
    refine (inner_cases quote one).resolve_left ?_
    rintro ⟨cs, front, inner, rfl⟩
    exact leaves _ ⟨cs, inner, rfl⟩ ⟨front, by simp⟩
  · intro shape
    have none : behindSingle quote line = none := by
      rcases shape with inner | ⟨cs, inner, rfl⟩
      · simpa [behindSingle] using inner.behindSingle_append []
      · simp [inner.behindSingle_append, behindSingle]
    refine ⟨?_, ?_⟩
    · rcases shape with inner | ⟨cs, inner, rfl⟩
      · exact inner.not_mem
      · simp [inner.not_mem]
    · rintro _ ⟨cs, inner, rfl⟩ ⟨front, rfl⟩
      rw [List.append_assoc, List.singleton_append, behindSingle_closing opens inner] at none
      cases none

theorem behindSingle_of_leavesOpen (opens : IsQuote quote) (leaves : LeavesOpen quote false line) :
    behindSingle quote line = none ∧ behindSingle quote (line ++ ['\n']) = none := by
  have newline := opens.ne_newline.symm
  rcases (leavesOpen_single_iff opens).mp leaves with inner | ⟨cs, inner, rfl⟩
  · refine ⟨by simpa [behindSingle] using inner.behindSingle_append [], ?_⟩
    simp [inner.behindSingle_append, behindSingle, newline]
  · simp [List.append_assoc, inner.behindSingle_append, behindSingle]

/-- A text between triple quotes goes on behind a line if it leaves the text open. -/
theorem tripleTail_line_iff (opens : IsQuote quote) (one : '\n' ∉ line) :
    TripleTail quote (line ++ '\n' :: tail) ↔ LeavesOpen quote true line ∧ TripleTail quote tail := by
  constructor
  · intro behind
    refine ⟨⟨one, fun other closing front => ?_⟩, ?_⟩
    · have same := TripleTail.eq_of_prefix closing opens.ne_backslash behind
        (front.trans (List.prefix_append _ _))
      have long := front.length_le
      simp [same] at long
    · induction line using unit_induction with
      | nil =>
        refine (behind.behind_plain (by decide)).resolve_left fun same => ?_
        exact opens.ne_newline (List.cons.inj same).1.symm
      | alone => exact behind.behind_escape opens
      | escaped c line ih => exact ih (by simp_all) (behind.behind_escape opens)
      | plain c line unescaped ih =>
        refine ih (by simp_all) ((behind.behind_plain unescaped).resolve_left fun same => ?_)
        have member : '\n' ∈ [quote, quote, quote] := same ▸ by simp
        simp [opens.ne_newline.symm] at member
  · rintro ⟨leaves, behind⟩
    induction line using unit_induction with
    | nil =>
      refine .plain (by decide) (fun early => ?_) behind
      exact opens.ne_newline (List.cons_prefix_cons.mp early).1
    | alone => exact .escaped behind
    | escaped c line ih => exact .escaped (ih (by simp_all) leaves.behind_escape)
    | plain c line unescaped ih =>
      obtain ⟨within, leaves⟩ := leaves.behind_plain unescaped
      exact .plain unescaped (not_prefix_line opens within tail) (ih (by simp_all) leaves)

/-! ### The later lines of a text -/

/-- The end of a text, from the start of a later line on, line by line. -/
inductive Ends (quote : Char) (triple strict : Bool) : List Char → Prop where
  | here {tail : List Char} (closing : Closing quote triple tail) (one : '\n' ∉ tail) :
      Ends quote triple strict tail
  | later {line tail : List Char} (leaves : LeavesOpen quote triple line)
      (joins : strict = true → line.getLast? = some '\\') (behind : Ends quote triple strict tail) :
      Ends quote triple strict (line ++ '\n' :: tail)

/-- Between single quotes the lines are joined, whether or not the backslash is one of the text. -/
theorem laterTail_iff (opens : IsQuote quote) :
    LaterTail quote tail ↔ Ends quote false true tail := by
  constructor
  · intro behind
    induction behind with
    | closed inner => exact .here ⟨_, inner, rfl⟩ (by simp [inner.not_mem, opens.ne_newline.symm])
    | @joined cs tail inner _ ih =>
      have leaves := (leavesOpen_single_iff opens).mpr (.inr ⟨cs, inner, rfl⟩)
      simpa using Ends.later leaves (by simp) ih
    | escaped inner last _ ih =>
      exact .later ((leavesOpen_single_iff opens).mpr (.inl inner)) (fun _ => last) ih
  · intro behind
    induction behind with
    | here closing _ =>
      obtain ⟨cs, inner, rfl⟩ := closing
      exact .closed inner
    | later leaves joins _ ih =>
      rcases (leavesOpen_single_iff opens).mp leaves with inner | ⟨cs, inner, rfl⟩
      · exact .escaped inner (joins rfl) ih
      · simpa using LaterTail.joined inner ih

/-- Whether every line break stands behind a backslash. -/
def AllJoined (cs : List Char) : Prop :=
  ∀ middle last, cs = middle ++ '\n' :: last → middle.getLast? = some '\\'

theorem count_line (one : '\n' ∉ line) (tail : List Char) :
    (line ++ '\n' :: tail).count '\n' = tail.count '\n' + 1 := by
  simp [List.count_eq_zero.mpr one]

/-- The last line of some characters, counted from their first one or from the one behind it. -/
theorem add_count_line (one : '\n' ∉ line) (number : Nat) (tail : List Char) :
    number + (line ++ '\n' :: tail).count '\n' = number + 1 + tail.count '\n' := by
  rw [count_line one, Nat.add_right_comm, Nat.add_assoc]

/-- A line break is the first one or behind it. -/
theorem line_append_eq_iff (one : '\n' ∉ line) {front back : List Char} :
    line ++ '\n' :: tail = front ++ '\n' :: back ↔ front = line ∧ back = tail ∨
      ∃ more, front = line ++ '\n' :: more ∧ tail = more ++ '\n' :: back := by
  constructor
  · intro same
    rcases List.append_eq_append_iff.mp same with ⟨more, rfl, behind⟩ | ⟨more, rfl, behind⟩
    · cases more with
      | nil => exact .inl ⟨by simp, by simpa [eq_comm] using behind⟩
      | cons c more =>
        obtain ⟨rfl, rfl⟩ : '\n' = c ∧ _ := by simpa using behind
        exact .inr ⟨more, rfl, rfl⟩
    · cases more with
      | nil => exact .inl ⟨by simp, by simpa [eq_comm] using behind⟩
      | cons c more =>
        obtain ⟨rfl, -⟩ : '\n' = c ∧ _ := by simpa using behind
        simp at one
  · rintro (⟨rfl, rfl⟩ | ⟨more, rfl, rfl⟩) <;> simp

theorem getLast?_line_append {last : Char} (other : last ≠ '\n') :
    (line ++ '\n' :: tail).getLast? = some last ↔ tail.getLast? = some last := by
  cases found : tail.getLast? <;> simp [List.getLast?_cons, found, other.symm]

theorem allJoined_line_iff (one : '\n' ∉ line) :
    AllJoined (line ++ '\n' :: tail) ↔ line.getLast? = some '\\' ∧ AllJoined tail := by
  refine ⟨fun joined => ⟨joined line tail rfl, ?_⟩, ?_⟩
  · rintro middle last rfl
    exact (getLast?_line_append (by decide)).mp (joined (line ++ '\n' :: middle) last (by simp))
  · rintro ⟨here, later⟩ middle last same
    rcases (line_append_eq_iff one).mp same with ⟨rfl, -⟩ | ⟨more, rfl, rfl⟩
    · exact here
    · exact (getLast?_line_append (by decide)).mpr (later more last rfl)

theorem joinsLines_line_iff (one : '\n' ∉ line) :
    JoinsLines (line ++ '\n' :: tail) ↔ AllJoined tail := by
  constructor
  · rintro joins middle last rfl
    exact joins line middle last rfl
  · intro joined first middle last same
    rcases (line_append_eq_iff one).mp same with ⟨rfl, rfl⟩ | ⟨more, rfl, rfl⟩
    · exact joined middle last rfl
    · exact (getLast?_line_append (by decide)).mp (joined (more ++ '\n' :: middle) last (by simp))

/-- Characters have no line break, or their first line is followed by others. -/
theorem line_cases (cs : List Char) :
    '\n' ∉ cs ∨ ∃ line tail, '\n' ∉ line ∧ cs = line ++ '\n' :: tail := by
  by_cases member : '\n' ∈ cs
  · obtain ⟨line, tail, rfl, one⟩ := List.eq_append_cons_of_mem member
    exact .inr ⟨line, tail, one, rfl⟩
  · exact .inl member

/-- Induction along the lines of some characters. -/
@[elab_as_elim]
theorem line_induction {motive : List Char → Prop} (last : ∀ line, '\n' ∉ line → motive line)
    (line : ∀ line tail, '\n' ∉ line → motive tail → motive (line ++ '\n' :: tail)) (cs : List Char) :
    motive cs := by
  induction bound : cs.length using Nat.strong_induction_on generalizing cs with
  | _ n ih =>
    rcases line_cases cs with one | ⟨first, tail, one, rfl⟩
    · exact last cs one
    · exact line first tail one (ih tail.length (by simp [← bound]; omega) tail rfl)

theorem tripleTail_iff (opens : IsQuote quote) :
    TripleTail quote tail ∧ (strict = true → AllJoined tail) ↔ Ends quote true strict tail := by
  constructor
  · rintro ⟨behind, joins⟩
    induction tail using line_induction with
    | last tail one => exact .here behind one
    | line line tail one ih =>
      obtain ⟨leaves, behind⟩ := (tripleTail_line_iff opens one).mp behind
      have joins (isStrict : strict = true) := (allJoined_line_iff one).mp (joins isStrict)
      exact .later leaves (fun isStrict => (joins isStrict).1)
        (ih behind fun isStrict => (joins isStrict).2)
  · intro behind
    induction behind with
    | here closing one =>
      refine ⟨closing, fun _ middle last same => ?_⟩
      simp [same] at one
    | later leaves joins _ ih =>
      refine ⟨(tripleTail_line_iff opens leaves.1).mpr ⟨leaves, ih.1⟩, fun strict => ?_⟩
      exact (allJoined_line_iff leaves.1).mpr ⟨joins strict, ih.2 strict⟩

/-! ### Texts of several lines -/

/-- The first line of a text that goes on below. -/
inductive OpeningLine (quote : Char) : Bool → List Char → Prop where
  | single {cs : List Char} (opens : IsQuote quote) (inner : Inner quote cs) :
      OpeningLine quote false (quote :: (cs ++ ['\\']))
  | triple {line : List Char} (opens : IsQuote quote) (leaves : LeavesOpen quote true line) :
      OpeningLine quote true (quote :: quote :: quote :: line)

theorem OpeningLine.isQuote (opening : OpeningLine quote triple line) : IsQuote quote := by
  cases opening with
  | single opens _ | triple opens _ => exact opens

theorem OpeningLine.not_mem (opening : OpeningLine quote triple line) : '\n' ∉ line := by
  have within := opening.isQuote.ne_newline.symm
  cases opening with
  | single _ inner => simp [within, inner.not_mem]
  | triple _ leaves => simp [within, leaves.1]

/-- No two quotes in a row open a text between single quotes. -/
theorem Inner.not_two (inner : Inner quote cs) (opens : IsQuote quote) (rest : List Char) :
    ¬ [quote, quote] <+: cs ++ '\\' :: rest := fun early => by
  have first : ∃ more, cs ++ '\\' :: rest = quote :: more := by
    obtain ⟨more, same⟩ := early
    exact ⟨_, same.symm⟩
  obtain ⟨more, same⟩ := first
  cases inner with
  | nil => exact opens.ne_backslash (List.cons.inj same).1.symm
  | plain other _ _ _ => exact other (List.cons.inj same).1
  | escaped _ _ => exact opens.ne_backslash (List.cons.inj same).1.symm

theorem IsText.exists_lines {quoted : List Char} (text : IsText strict rest quoted)
    (several : '\n' ∈ quoted) : ∃ quote triple line tail, OpeningLine quote triple line ∧
      Ends quote triple (strict || !triple) tail ∧ quoted = line ++ '\n' :: tail := by
  cases text with
  | @single quote tail opens behind two =>
    cases behind with
    | closed inner => simp [inner.not_mem, opens.ne_newline.symm] at several
    | @joined cs tail inner later =>
      refine ⟨quote, false, quote :: (cs ++ ['\\']), tail, .single opens inner, ?_, by simp⟩
      simpa using (laterTail_iff opens).mp later
  | @triple quote tail opens behind joins =>
    rcases line_cases tail with one | ⟨line, tail, one, rfl⟩
    · simp [one, opens.ne_newline.symm] at several
    · obtain ⟨leaves, behind⟩ := (tripleTail_line_iff opens one).mp behind
      refine ⟨quote, true, quote :: quote :: quote :: line, tail, .triple opens leaves, ?_, rfl⟩
      have ends := (tripleTail_iff opens).mp
        ⟨behind, fun isStrict => (joinsLines_line_iff one).mp (joins isStrict)⟩
      simpa using ends

theorem OpeningLine.isText (opening : OpeningLine quote triple line)
    (ends : Ends quote triple (strict || !triple) tail) :
    IsText strict rest (line ++ '\n' :: tail) := by
  cases opening with
  | @single cs opens inner =>
    have later : LaterTail quote tail := (laterTail_iff opens).mpr (by simpa using ends)
    have two := inner.not_two opens ('\n' :: tail ++ rest)
    simpa using IsText.single opens (.joined inner later) (by simpa using two)
  | triple opens leaves =>
    obtain ⟨behind, joins⟩ := (tripleTail_iff opens).mpr ends
    refine .triple opens ((tripleTail_line_iff opens leaves.1).mpr ⟨leaves, behind⟩) fun isStrict => ?_
    exact (joinsLines_line_iff leaves.1).mpr (joins (by simp [isStrict]))

theorem isBroken_iff : IsBroken strict rest cs ↔ ∃ quote triple line tail,
    OpeningLine quote triple line ∧ (strict || !triple) = true ∧ BreaksOff quote triple rest tail ∧
      cs = line ++ '\n' :: tail := by
  constructor
  · intro broken
    cases broken with
    | @single quote cs tail opens inner behind =>
      exact ⟨quote, false, _, tail, .single opens inner, by simp, behind, by simp⟩
    | @triple quote line tail opens joins leaves behind =>
      exact ⟨quote, true, _, tail, .triple opens leaves, by simp [joins], behind, rfl⟩
  · rintro ⟨quote, triple, line, tail, opening, joins, behind, rfl⟩
    cases opening with
    | single opens inner => simpa using IsBroken.single opens inner behind
    | triple opens leaves => exact .triple opens (by simpa using joins) leaves behind

/-! ### How texts end -/

theorem LaterTail.getLast? (behind : LaterTail quote tail) :
    tail.getLast? = some quote := by
  induction behind with
  | closed => simp
  | joined _ _ ih | escaped _ _ _ ih => simp [List.getLast?_cons, ih]

theorem TripleTail.getLast? (behind : TripleTail quote tail) :
    tail.getLast? = some quote := by
  induction behind with
  | closed => rfl
  | plain _ _ _ ih | escaped _ ih => simp [List.getLast?_cons, ih]

/-- A text ends with a quote. -/
theorem IsText.getLast? {quoted : List Char} (text : IsText strict rest quoted) :
    ∃ quote, IsQuote quote ∧ quoted.getLast? = some quote := by
  cases text with
  | @single quote tail opens behind =>
    refine ⟨quote, opens, ?_⟩
    cases behind with
    | closed inner => simp [List.getLast?_cons]
    | joined inner behind => simp [List.getLast?_cons, behind.getLast?]
  | @triple quote tail opens behind =>
    exact ⟨quote, opens, by simp [List.getLast?_cons, behind.getLast?]⟩

end ProbeWeave.Weaving.Indent
