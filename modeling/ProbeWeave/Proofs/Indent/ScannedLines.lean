import Mathlib
import ProbeWeave.Proofs.Indent.TextLines

/-! # The scan of code, from any character on

The scan takes code line by line, while pieces begin anywhere on a line and end on others. So its
result is told here from any character on, the rest of the line first and the other lines behind it,
and for each kind of piece one lemma says how the scan goes on behind it.

Code is taken to have newlines for its only line breaks, so there are no carriage returns in it.
-/

namespace ProbeWeave.Weaving.Indent

/-! ### First lines -/

/-- The first line of some characters with its break. -/
def firstLine : List Char → List Char
  | [] => []
  | c :: cs => if c = '\n' then [c] else c :: firstLine cs

/-- What stands behind the first line. -/
def otherLines : List Char → List Char
  | [] => []
  | c :: cs => if c = '\n' then cs else otherLines cs

variable {line front rest : List Char}

theorem firstLine_append (one : '\n' ∉ front) (cs : List Char) :
    firstLine (front ++ cs) = front ++ firstLine cs := by
  induction front with
  | nil => rfl
  | cons c front ih =>
    obtain ⟨within, one⟩ : '\n' ≠ c ∧ '\n' ∉ front := by simpa using one
    simp [firstLine, within.symm, ih one]

theorem otherLines_append (one : '\n' ∉ front) (cs : List Char) :
    otherLines (front ++ cs) = otherLines cs := by
  induction front with
  | nil => rfl
  | cons c front ih =>
    obtain ⟨within, one⟩ : '\n' ≠ c ∧ '\n' ∉ front := by simpa using one
    simp [otherLines, within.symm, ih one]

theorem firstLine_append_otherLines (cs : List Char) : firstLine cs ++ otherLines cs = cs := by
  induction cs with
  | nil => rfl
  | cons c cs ih =>
    by_cases newline : c = '\n' <;> simp [firstLine, otherLines, newline, ih]

theorem firstLine_line (one : '\n' ∉ line) (rest : List Char) :
    firstLine (line ++ '\n' :: rest) = line ++ ['\n'] ∧ otherLines (line ++ '\n' :: rest) = rest := by
  simp [firstLine_append one, otherLines_append one, firstLine, otherLines]

theorem firstLine_last (one : '\n' ∉ line) : firstLine line = line ∧ otherLines line = [] := by
  simpa [firstLine, otherLines] using And.intro (firstLine_append one []) (otherLines_append one [])

theorem cutLines_eq {cs : List Char} (present : cs ≠ []) :
    Text.cutLines (· == '\n') cs = firstLine cs :: Text.cutLines (· == '\n') (otherLines cs) := by
  induction cs with
  | nil => exact (present rfl).elim
  | cons c cs ih =>
    by_cases newline : c = '\n'
    · simp [Text.cutLines, firstLine, otherLines, newline]
    · cases cs with
      | nil => simp [Text.cutLines, firstLine, otherLines, newline]
      | cons d cs =>
        rw [Text.cutLines, if_neg (by simp [newline]), ih (List.cons_ne_nil d cs)]
        simp only [firstLine, otherLines, newline, if_false]

/-! ### The scan of a line -/

theorem behindTriple_suffix {quote : Char} {cs rest : List Char}
    (found : behindTriple quote cs = some rest) : rest <:+ cs := by
  fun_induction behindTriple quote cs with
  | case1 | case2 | case4 => cases found
  | case3 _ _ _ ih => exact (ih found).trans ((List.suffix_cons _ _).trans (List.suffix_cons _ _))
  | case5 c cs =>
    cases found
    exact (List.drop_suffix 2 cs).trans (List.suffix_cons _ _)
  | case6 _ _ _ _ _ ih => exact (ih found).trans (List.suffix_cons _ _)

theorem singleEnd_suffix {quote : Char} {cs rest : List Char}
    (found : singleEnd quote cs = .closed rest) : rest <:+ cs := by
  fun_induction singleEnd quote cs with
  | case1 | case2 | case3 | case5 | case7 => cases found
  | case4 _ _ _ _ ih => exact (ih found).trans ((List.suffix_cons _ _).trans (List.suffix_cons _ _))
  | case6 =>
    cases found
    exact List.suffix_cons _ _
  | case8 _ _ _ _ _ _ _ _ ih => exact (ih found).trans (List.suffix_cons _ _)

/-- A bound of the length of what is left is as good as another. -/
theorem scanRest_bound (number : Nat) {n m : Nat} {state : State} {cs : List Char}
    (enough : cs.length ≤ n) (enough' : cs.length ≤ m) :
    scanRest number n state cs = scanRest number m state cs := by
  induction n generalizing m state cs with
  | zero =>
    obtain rfl : cs = [] := by simpa using enough
    cases m <;> rfl
  | succ n ih =>
    cases cs with
    | nil => cases m <;> rfl
    | cons c cs =>
      obtain _ | m := m
      · simp at enough'
      have enough : cs.length ≤ n := by simpa using enough
      have enough' : cs.length ≤ m := by simpa using enough'
      have same {state : State} {rest : List Char} (inside : rest <:+ cs) :
          scanRest number n state rest = scanRest number m state rest :=
        ih (inside.length_le.trans enough) (inside.length_le.trans enough')
      simp only [scanRest]
      split
      · exact same (List.dropWhile_suffix _)
      · split
        · split
          · split
            · exact same ((behindTriple_suffix ‹_›).trans (List.drop_suffix 2 cs))
            · rfl
          · split
            · exact same (singleEnd_suffix ‹_›)
            · rfl
            · exact same List.suffix_rfl
        · split
          · split
            · rfl
            · exact same List.suffix_rfl
          · split
            · exact same List.suffix_rfl
            · split <;> exact same List.suffix_rfl

/-- The scan from inside a line on. -/
def restFrom (number : Nat) (state : State) (cs : List Char) : Except ScanFault (List (Nat × Nat)) :=
  scanLines (number + 1) (scanRest number (firstLine cs).length state (firstLine cs))
    (Text.cutLines (· == '\n') (otherLines cs))

/-- The scan from the start of a line on. -/
def linesFrom (number : Nat) (state : State) (cs : List Char) : Except ScanFault (List (Nat × Nat)) :=
  scanLines number state (Text.cutLines (· == '\n') cs)

variable {number : Nat} {state : State} {cs : List Char}

/-- In front of the last piece of a line. -/
theorem restFrom_append {state' : State} (front : List Char) (one : '\n' ∉ front)
    (step : scanRest number (front ++ firstLine cs).length state (front ++ firstLine cs) =
      scanRest number (firstLine cs).length state' (firstLine cs)) :
    restFrom number state (front ++ cs) = restFrom number state' cs := by
  rw [restFrom, firstLine_append one, otherLines_append one, step, restFrom]

/-- Behind the last piece of a line. -/
theorem restFrom_line {state' : State} (line : List Char) (one : '\n' ∉ line)
    (step : scanRest number (line.length + 1) state (line ++ ['\n']) = state') :
    restFrom number state (line ++ '\n' :: cs) = linesFrom (number + 1) state' cs := by
  obtain ⟨first, behind⟩ := firstLine_line one cs
  rw [restFrom, first, behind, List.length_append, List.length_singleton, step, linesFrom]

theorem restFrom_newline :
    restFrom number state ('\n' :: cs) = linesFrom (number + 1) state cs :=
  restFrom_line [] List.not_mem_nil (by simp [scanRest])

theorem restFrom_sign {c : Char} (within : c ≠ '\n') (code : c ≠ '#') (bare : ¬ IsQuote c)
    (unescaped : c ≠ '\\') : restFrom number state (c :: cs) =
      restFrom number { state with level := state.level + depth c } cs := by
  obtain ⟨double, single⟩ := not_or.mp bare
  refine restFrom_append [c] (by simp [within.symm]) ?_
  simp only [List.singleton_append, List.length_cons, scanRest, depth, beq_iff_eq, code, double, single,
    unescaped, Bool.or_eq_true, or_false, if_false, or_assoc]
  split
  · rfl
  · split
    · rfl
    · simp

/-- A comment is passed. -/
theorem restFrom_comment {note : List Char} (one : '\n' ∉ note) (unified : '\r' ∉ note)
    (ends : cs = [] ∨ cs.head? = some '\n') :
    restFrom number state ('#' :: note ++ cs) = restFrom number state cs := by
  have skipped : (note ++ firstLine cs).dropWhile (fun d => d != '\r' && d != '\n') = firstLine cs := by
    rw [List.dropWhile_append_of_pos]
    · rcases ends with rfl | newline
      · rfl
      · obtain ⟨rest, rfl⟩ := List.head?_eq_some_iff.mp newline
        simp [firstLine]
    · intro d member
      have first : d ≠ '\r' := fun same => unified (same ▸ member)
      have second : d ≠ '\n' := fun same => one (same ▸ member)
      simp [first, second]
  refine restFrom_append _ (by simp [one]) ?_
  simp only [List.cons_append, List.length_cons, scanRest, beq_self_eq_true, if_true, skipped]
  exact scanRest_bound number (by simp) le_rfl

/-- A backslash inside of a line joins nothing. -/
theorem restFrom_backslash (single : cs.head? ≠ some '\n') (unified : '\r' ∉ cs) :
    restFrom number state ('\\' :: cs) = restFrom number state cs := by
  refine restFrom_append ['\\'] (by simp) ?_
  have first : firstLine cs ≠ ['\n'] ∧ firstLine cs ≠ ['\r', '\n'] := by
    cases cs with
    | nil => simp [firstLine]
    | cons c cs =>
      have other : c ≠ '\n' := by simpa using single
      have unified : '\r' ≠ c := fun same => unified (same ▸ List.mem_cons_self)
      simp [firstLine, other, unified.symm]
  simp [scanRest, first]

theorem restFrom_joint : restFrom number state ('\\' :: '\n' :: cs) =
    linesFrom (number + 1) { state with joined := true } cs :=
  restFrom_line ['\\'] (by simp) (by simp [scanRest])

/-! ### Texts -/

/-- The state below the first line of a text. -/
def State.opened (state : State) (text : OpenText) : State :=
  { state with text := some text, strict := state.strict || !text.triple }

section Texts

variable {quote : Char} {triple : Bool} {inner tail : List Char}

theorem scanRest_triple (opens : IsQuote quote) (n : Nat) :
    scanRest number (n + 1) state (quote :: quote :: quote :: cs) =
      ((behindTriple quote cs).map (scanRest number n state)).getD
        { state with text := some ⟨quote, true, number⟩ } := by
  have code : quote ≠ '#' := opens.ne (by decide)
  have quotes : (quote == '"' || quote == '\'') = true := by simpa [IsQuote] using opens
  cases found : behindTriple quote cs <;> simp [scanRest, code, quotes, found]

theorem scanRest_single (opens : IsQuote quote) (two : ¬ [quote, quote] <+: cs) (n : Nat) :
    scanRest number (n + 1) state (quote :: cs) =
      match singleEnd quote cs with
      | .closed rest => scanRest number n state rest
      | .joined => { state with text := some ⟨quote, false, number⟩, strict := true }
      | .none => scanRest number n state cs := by
  have code : quote ≠ '#' := opens.ne (by decide)
  have quotes : (quote == '"' || quote == '\'') = true := by simpa [IsQuote] using opens
  have two : cs.take 2 ≠ [quote, quote] := fun same => two (same ▸ List.take_prefix 2 cs)
  cases found : singleEnd quote cs <;> simp [scanRest, code, quotes, two, found]

theorem singleEnd_quote (opens : IsQuote quote) (cs : List Char) :
    singleEnd quote (quote :: cs) = .closed cs := by
  simp [singleEnd, opens.ne_backslash]

/-- What begins with the first line begins with the characters. -/
theorem prefix_of_prefix_firstLine {front rest : List Char} (cs : List Char)
    (early : front <+: cs ++ firstLine rest) : front <+: cs ++ rest :=
  early.trans ((List.prefix_append_right_inj _).mpr
    ⟨otherLines rest, firstLine_append_otherLines rest⟩)

/-- A text between triple quotes that ends on its line is passed. -/
theorem restFrom_triple (opens : IsQuote quote) (behind : TripleTail quote tail) (one : '\n' ∉ tail) :
    restFrom number state (quote :: quote :: quote :: tail ++ cs) = restFrom number state cs := by
  refine restFrom_append _ (by simp [one, opens.ne_newline.symm]) ?_
  simp only [List.cons_append, List.length_cons, scanRest_triple opens,
    behind.behindTriple_append opens one]
  exact scanRest_bound number (by simp; omega) le_rfl

/-- A text between single quotes that ends on its line is passed. -/
theorem restFrom_single (opens : IsQuote quote) (within : Inner quote inner) (unified : '\r' ∉ inner)
    (two : ¬ [quote, quote] <+: inner ++ [quote] ++ cs) :
    restFrom number state (quote :: (inner ++ [quote]) ++ cs) = restFrom number state cs := by
  have two := mt (prefix_of_prefix_firstLine _) two
  refine restFrom_append _ (by simp [within.not_mem, opens.ne_newline.symm]) ?_
  rw [List.cons_append, List.length_cons, scanRest_single opens two, List.append_assoc,
    within.singleEnd_append unified, List.singleton_append, singleEnd_quote opens]
  exact scanRest_bound number (by simp; omega) le_rfl

/-- Behind the first line of a text the scan goes on inside of it. -/
theorem restFrom_opening (opening : OpeningLine quote triple line) (unified : '\r' ∉ line)
    (number : Nat) (state : State) (cs : List Char) :
    restFrom number state (line ++ '\n' :: cs) =
      linesFrom (number + 1) (state.opened ⟨quote, triple, number⟩) cs := by
  refine restFrom_line line opening.not_mem ?_
  cases opening with
  | @single inner opens within =>
    have two : ¬ [quote, quote] <+: inner ++ ['\\'] ++ ['\n'] := by
      simpa using within.not_two opens ['\n']
    rw [List.cons_append, List.length_cons, scanRest_single opens two, List.append_assoc,
      within.singleEnd_append (by simp_all)]
    simp [singleEnd, State.opened]
  | triple opens leaves =>
    simp only [List.cons_append, List.length_cons, scanRest_triple opens,
      (behindTriple_of_leavesOpen opens leaves).2]
    simp [State.opened]

/-- A text between triple quotes that the last line leaves open is never closed. -/
theorem restFrom_triple_end (opens : IsQuote quote) (leaves : LeavesOpen quote true line) :
    restFrom number state (quote :: quote :: quote :: line) = .error .unfinished := by
  have one : '\n' ∉ quote :: quote :: quote :: line := by simp [leaves.1, opens.ne_newline.symm]
  obtain ⟨first, behind⟩ := firstLine_last one
  rw [restFrom, first, behind, List.length_cons, scanRest_triple opens,
    (behindTriple_of_leavesOpen opens leaves).1]
  simp [Text.cutLines, scanLines]

/-- A quote that opens no text is passed. -/
theorem restFrom_quote (opens : IsQuote quote) (unified : '\r' ∉ cs)
    (stray : ∀ inner, Inner quote inner →
      ¬ inner ++ [quote] <+: cs ∧ ¬ inner ++ ['\\', '\n'] <+: cs) :
    restFrom number state (quote :: cs) = restFrom number state cs := by
  have two : ¬ [quote, quote] <+: firstLine cs := fun early =>
    (stray [] .nil).1 ((List.prefix_append [quote] [quote]).trans (prefix_of_prefix_firstLine [] early))
  have none : singleEnd quote (firstLine cs) = .none := by
    rcases line_cases cs with one | ⟨line, rest, one, rfl⟩
    · rw [(firstLine_last one).1]
      rcases inner_cases quote one with ⟨inner, behind, within, rfl⟩ | within | ⟨inner, within, rfl⟩
      · exact ((stray inner within).1 ⟨behind, by simp⟩).elim
      · simpa [singleEnd] using within.singleEnd_append unified []
      · simpa [singleEnd] using within.singleEnd_append (by simp_all) ['\\']
    · rw [(firstLine_line one rest).1]
      rcases inner_cases quote one with ⟨inner, behind, within, rfl⟩ | within | ⟨inner, within, rfl⟩
      · exact ((stray inner within).1 ⟨behind ++ '\n' :: rest, by simp⟩).elim
      · simp [within.singleEnd_append (by simp_all), singleEnd, opens.ne_newline.symm]
      · exact ((stray inner within).2 ⟨rest, by simp⟩).elim
  refine restFrom_append [quote] (by simp [opens.ne_newline.symm]) ?_
  rw [List.singleton_append, List.length_cons, scanRest_single opens two, none]

end Texts

/-! ### The scan at the start of a line -/

theorem linesFrom_eq (present : cs ≠ []) : linesFrom number state cs =
    (scanLine number state (firstLine cs)).bind fun (state, span) =>
      (linesFrom (number + 1) state (otherLines cs)).map (span.toList ++ ·) := by
  rw [linesFrom, cutLines_eq present, scanLines]
  cases scanLine number state (firstLine cs) <;> rfl

/-- Behind a line that ends no text of several lines. -/
theorem linesFrom_of_scanLine (state' : State) (present : cs ≠ [])
    (scanned : scanLine number state (firstLine cs) = .ok (state', none)) :
    linesFrom number state cs = linesFrom (number + 1) state' (otherLines cs) := by
  rw [linesFrom_eq present, scanned]
  cases found : linesFrom (number + 1) state' (otherLines cs) <;>
    simp [Except.bind, Except.map, found]

/-- The code ends inside of a text. -/
theorem linesFrom_text_nil (inText : state.text.isSome = true) :
    linesFrom number state [] = .error .unfinished := by
  simp [linesFrom, Text.cutLines, scanLines, inText]

section OpenTexts

variable {quote : Char} {triple : Bool} {first : Nat} {tail : List Char}

/-- What is behind the closing quotes of an open text, if they are on a line. -/
def behindQuotes (quote : Char) (triple : Bool) (line : List Char) : Option (List Char) :=
  if triple then behindTriple quote line else behindSingle quote line

theorem behindQuotes_closing (opens : IsQuote quote) (closing : Closing quote triple tail)
    (one : '\n' ∉ tail) (rest : List Char) : behindQuotes quote triple (tail ++ rest) = some rest := by
  cases triple with
  | true => exact TripleTail.behindTriple_append closing opens one rest
  | false =>
    obtain ⟨cs, inner, rfl⟩ := closing
    simpa [behindQuotes] using behindSingle_closing opens inner rest

theorem behindQuotes_leavesOpen (opens : IsQuote quote) (leaves : LeavesOpen quote triple line) :
    behindQuotes quote triple line = none ∧ behindQuotes quote triple (line ++ ['\n']) = none := by
  cases triple with
  | true => exact behindTriple_of_leavesOpen opens leaves
  | false => exact behindSingle_of_leavesOpen opens leaves

/-- A line that closes a text goes on as code. -/
theorem linesFrom_closing (opens : IsQuote quote) (closing : Closing quote triple tail)
    (one : '\n' ∉ tail) (inText : state.text = some ⟨quote, triple, first⟩) :
    linesFrom number state (tail ++ cs) =
      (restFrom number { state with text := none, strict := false } cs).map ((first, number) :: ·) := by
  have present : tail ++ cs ≠ [] := by simp [closing.ne_nil]
  have found := behindQuotes_closing opens closing one (firstLine cs)
  have enough : (firstLine cs).length ≤ (tail ++ firstLine cs).length + 1 := by
    rw [List.length_append]
    omega
  rw [behindQuotes] at found
  rw [linesFrom_eq present, firstLine_append one, otherLines_append one, scanLine, inText]
  simp only [found, Except.bind, Option.toList_some, List.singleton_append]
  rw [restFrom, linesFrom, scanRest_bound number enough le_rfl]

theorem joinsNext_iff (unified : '\r' ∉ line) :
    joinsNext (line ++ ['\n']) = true ↔ line.getLast? = some '\\' := by
  rw [← List.head?_reverse]
  have unified : '\r' ∉ line.reverse := by simpa using unified
  rw [joinsNext, List.reverse_append]
  generalize line.reverse = back at unified
  cases back with
  | nil => simp
  | cons c cs =>
    have unified : c ≠ '\r' := fun same => unified (same ▸ List.mem_cons_self)
    simp [unified]

theorem not_joinsNext (one : '\n' ∉ line) : joinsNext line = false := by
  have one : '\n' ∉ line.reverse := by simpa using one
  rw [joinsNext]
  generalize line.reverse = back at one
  cases back with
  | nil => rfl
  | cons c cs =>
    have within : c ≠ '\n' := fun same => one (same ▸ List.mem_cons_self)
    simp [within]

theorem scanLine_leavesOpen (number : Nat) (inText : state.text = some ⟨quote, triple, first⟩)
    (leaves : behindQuotes quote triple line = none) :
    scanLine number state line =
      .ok (if state.strict && !joinsNext line then { state with text := none } else state, none) := by
  rw [behindQuotes] at leaves
  simp only [scanLine, inText, leaves]

/-- Below a line that leaves a text open, and is joined to the next one if it has to be, the scan is
inside of the text as before. -/
theorem linesFrom_joined (opens : IsQuote quote) (leaves : LeavesOpen quote triple line)
    (inText : state.text = some ⟨quote, triple, first⟩) (unified : '\r' ∉ line)
    (joins : state.strict = true → line.getLast? = some '\\') :
    linesFrom number state (line ++ '\n' :: cs) = linesFrom (number + 1) state cs := by
  obtain ⟨first, behind⟩ := firstLine_line leaves.1 cs
  have scanned := scanLine_leavesOpen number inText (behindQuotes_leavesOpen opens leaves).2
  have stays : (state.strict && !joinsNext (line ++ ['\n'])) = false := by
    cases isStrict : state.strict with
    | false => rfl
    | true => simp [(joinsNext_iff unified).mpr (joins isStrict)]
  rw [stays, ← first] at scanned
  rw [linesFrom_of_scanLine state (by simp) scanned, behind]

/-- Below one that should be joined and is not, the scan has left the text. -/
theorem linesFrom_unjoined (opens : IsQuote quote) (leaves : LeavesOpen quote triple line)
    (inText : state.text = some ⟨quote, triple, first⟩) (unified : '\r' ∉ line)
    (isStrict : state.strict = true) (last : line.getLast? ≠ some '\\') :
    linesFrom number state (line ++ '\n' :: cs) =
      linesFrom (number + 1) { state with text := none } cs := by
  obtain ⟨first, behind⟩ := firstLine_line leaves.1 cs
  have scanned := scanLine_leavesOpen number inText (behindQuotes_leavesOpen opens leaves).2
  have stops : (state.strict && !joinsNext (line ++ ['\n'])) = true := by
    simp [isStrict, (joinsNext_iff unified).not.mpr last]
  rw [stops, ← first] at scanned
  rw [linesFrom_of_scanLine { state with text := none } (by simp) scanned, behind]

/-- The last line of the code is joined to none. -/
theorem linesFrom_leavesOpen_end (opens : IsQuote quote) (leaves : LeavesOpen quote triple line)
    (present : line ≠ []) (inText : state.text = some ⟨quote, triple, first⟩) :
    linesFrom number state line =
      linesFrom (number + 1) (if state.strict then { state with text := none } else state) [] := by
  obtain ⟨first, behind⟩ := firstLine_last leaves.1
  have scanned := scanLine_leavesOpen number inText (behindQuotes_leavesOpen opens leaves).1
  rw [not_joinsNext leaves.1, Bool.not_false, Bool.and_true, ← first] at scanned
  rw [linesFrom_of_scanLine _ present scanned, behind]

/-- A text that ends is found with its lines. -/
theorem linesFrom_ends (opens : IsQuote quote) (ends : Ends quote triple state.strict tail)
    (unified : '\r' ∉ tail) (inText : state.text = some ⟨quote, triple, first⟩) (number : Nat)
    (cs : List Char) :
    linesFrom number state (tail ++ cs) =
      (restFrom (number + tail.count '\n') { state with text := none, strict := false } cs).map
        ((first, number + tail.count '\n') :: ·) := by
  induction ends generalizing number with
  | here closing one =>
    rw [linesFrom_closing opens closing one inText, List.count_eq_zero.mpr one, Nat.add_zero]
  | @later line tail leaves joins ends ih =>
    obtain ⟨unified, unified'⟩ : '\r' ∉ line ∧ '\r' ∉ tail := by simpa using unified
    rw [List.append_assoc, List.cons_append, linesFrom_joined opens leaves inText unified joins,
      ih unified', add_count_line leaves.1]

/-- Behind a text that breaks off the next line is code. -/
theorem linesFrom_breaksOff (opens : IsQuote quote) (breaks : BreaksOff quote triple cs tail)
    (isStrict : state.strict = true) (unified : '\r' ∉ tail)
    (inText : state.text = some ⟨quote, triple, first⟩) (number : Nat) :
    linesFrom number state (tail ++ cs) =
      linesFrom (number + tail.count '\n') { state with text := none } cs := by
  induction breaks generalizing number with
  | @here line leaves last =>
    have unified : '\r' ∉ line := by simpa using unified
    rw [List.append_assoc, List.singleton_append,
      linesFrom_unjoined opens leaves inText unified isStrict last, count_line leaves.1]
    rfl
  | @atEnd line leaves present ends =>
    subst ends
    rw [List.append_nil, linesFrom_leavesOpen_end opens leaves present inText, if_pos isStrict]
    rfl
  | @later line tail leaves last _ ih =>
    obtain ⟨unified, unified'⟩ : '\r' ∉ line ∧ '\r' ∉ tail := by simpa using unified
    rw [List.append_assoc, List.cons_append,
      linesFrom_joined opens leaves inText unified fun _ => last, ih unified', add_count_line leaves.1]

/-- An open text ends, breaks off, or is never closed. -/
theorem ends_or_breaksOff (opens : IsQuote quote) (inText : state.text = some ⟨quote, triple, first⟩)
    (unified : '\r' ∉ cs) (number : Nat) :
    (∃ tail rest, cs = tail ++ rest ∧ Ends quote triple state.strict tail) ∨
      (state.strict = true ∧ ∃ tail rest, cs = tail ++ rest ∧ BreaksOff quote triple rest tail) ∨
      linesFrom number state cs = .error .unfinished := by
  -- The lines go on until one closes the text, should have been joined, or is the last of the code.
  have closed {line : List Char} (one : '\n' ∉ line) (closes : ¬ LeavesOpen quote triple line)
      (rest : List Char) :
      ∃ tail rest', line ++ rest = tail ++ rest' ∧ Ends quote triple state.strict tail := by
    obtain ⟨tail, closing, more, rfl⟩ : ∃ tail, Closing quote triple tail ∧ tail <+: line := by
      simpa [LeavesOpen, one] using closes
    exact ⟨tail, more ++ rest, List.append_assoc .., .here closing (by simp_all)⟩
  have inside : state.text.isSome = true := by simp [inText]
  induction cs using line_induction generalizing number with
  | last line one =>
    by_cases leaves : LeavesOpen quote triple line
    · by_cases present : line = []
      · exact .inr (.inr (present ▸ linesFrom_text_nil inside))
      · cases isStrict : state.strict with
        | true => exact .inr (.inl ⟨rfl, line, [], by simp, .atEnd leaves present rfl⟩)
        | false =>
          refine .inr (.inr ?_)
          rw [linesFrom_leavesOpen_end opens leaves present inText, isStrict]
          exact linesFrom_text_nil inside
    · left
      simpa only [List.append_nil] using closed one leaves []
  | line line cs one ih =>
    obtain ⟨unified, unified'⟩ : '\r' ∉ line ∧ '\r' ∉ cs := by simpa using unified
    by_cases leaves : LeavesOpen quote triple line
    · by_cases stops : state.strict = true ∧ line.getLast? ≠ some '\\'
      · exact .inr (.inl ⟨stops.1, line ++ ['\n'], cs, by simp, .here leaves stops.2⟩)
      · have joins (isStrict : state.strict = true) : line.getLast? = some '\\' := by
          by_contra last
          exact stops ⟨isStrict, last⟩
        rw [linesFrom_joined opens leaves inText unified joins]
        rcases ih unified' (number + 1) with
          ⟨tail, rest, rfl, ends⟩ | ⟨isStrict, tail, rest, rfl, breaks⟩ | unfinished
        · exact .inl ⟨line ++ '\n' :: tail, rest, by simp, .later leaves joins ends⟩
        · exact .inr (.inl ⟨isStrict, line ++ '\n' :: tail, rest, by simp,
            .later leaves (joins isStrict) breaks⟩)
        · exact .inr (.inr unfinished)
    · exact .inl (closed one leaves _)

end OpenTexts

/-! ### Lines outside of texts -/

theorem restFrom_nil : restFrom number state [] = linesFrom (number + 1) state [] :=
  rfl

/-- A line that continues a statement. -/
theorem linesFrom_continued (outside : state.text = none)
    (continued : state.level ≠ 0 ∨ state.joined = true) (present : cs ≠ []) :
    linesFrom number state cs = restFrom number { state with joined := false } cs := by
  have inside : (state.level == 0 && !state.joined) = false := by
    rcases continued with level | joined <;> simp [*]
  refine linesFrom_of_scanLine _ present ?_
  simp only [scanLine, outside, inside, Bool.false_eq_true, if_false]
  rw [scanRest_bound number (Nat.le_succ _) le_rfl]

/-- The scan from the margin of a line that may begin a statement, behind blanks of some width. -/
def marginFrom (number : Nat) (state : State) (column : Nat) (cs : List Char) :
    Except ScanFault (List (Nat × Nat)) :=
  match columnOf column cs with
  | (_, []) => restFrom number state []
  | (column, c :: rest) =>
    if c = '#' ∨ c = '\n' then restFrom number state (c :: rest)
    else
      match adjust column state.columns with
      | none => .error .indentation
      | some columns => restFrom number { state with columns } (c :: rest)

/-- The blanks at a margin are all on the first line. -/
theorem columnOf_firstLine (column : Nat) (cs : List Char) :
    columnOf column (firstLine cs) = ((columnOf column cs).1, firstLine (columnOf column cs).2) ∧
      otherLines (columnOf column cs).2 = otherLines cs := by
  fun_induction columnOf column cs with
  | case1 _ _ ih | case2 _ _ ih | case3 _ _ ih => simpa [firstLine, otherLines, columnOf] using ih
  | case4 column cs space tab feed =>
    refine ⟨?_, rfl⟩
    cases cs with
    | nil => rfl
    | cons c cs =>
      have space : c ≠ ' ' := fun same => space cs (same ▸ rfl)
      have tab : c ≠ '\t' := fun same => tab cs (same ▸ rfl)
      have feed : c ≠ '\x0c' := fun same => feed cs (same ▸ rfl)
      rw [firstLine]
      split <;> simp [columnOf, space, tab, feed]

/-- A comment and what stands behind it on its line are passed. -/
theorem restFrom_note (unified : '\r' ∉ cs) :
    restFrom number state ('#' :: cs) = linesFrom (number + 1) state (otherLines cs) := by
  rcases line_cases cs with one | ⟨line, rest, one, rfl⟩
  · have passed : restFrom number state ('#' :: cs ++ []) = restFrom number state [] :=
      restFrom_comment one unified (.inl rfl)
    rw [(firstLine_last one).2, ← restFrom_nil]
    simpa using passed
  · rw [(firstLine_line one rest).2, ← restFrom_newline]
    exact restFrom_comment one (by simp_all) (.inr List.head?_cons)

theorem columnOf_suffix (column : Nat) (cs : List Char) : (columnOf column cs).2 <:+ cs := by
  fun_induction columnOf column cs with
  | case1 _ _ ih | case2 _ _ ih | case3 _ _ ih => exact ih.trans (List.suffix_cons _ _)
  | case4 => exact List.suffix_rfl

/-- What the scan makes of a line that may begin a statement, given what its blanks are. -/
theorem scanLine_margin {column : Nat} {c : Char} {behind : List Char} (number : Nat)
    (outside : state.text = none) (level : state.level = 0) (single : state.joined = false)
    (blanks : columnOf 0 line = (column, c :: behind)) (unified : c ≠ '\r') :
    scanLine number state line =
      if c = '#' ∨ c = '\n' then .ok (state, none)
      else
        match adjust column state.columns with
        | none => .error .indentation
        | some columns =>
          .ok (scanRest number (c :: behind).length { state with columns } (c :: behind), none) := by
  have enough : (c :: behind).length ≤ line.length + 1 := by
    have suffix := columnOf_suffix 0 line
    rw [blanks] at suffix
    exact suffix.length_le.trans (Nat.le_succ _)
  by_cases note : c = '#' ∨ c = '\n'
  · rw [if_pos note]
    rcases note with rfl | rfl <;> simp [scanLine, outside, level, single, blanks]
  · rw [if_neg note]
    obtain ⟨code, within⟩ := not_or.mp note
    cases placed : adjust column state.columns with
    | none => simp [scanLine, outside, level, single, blanks, code, within, unified, placed]
    | some columns =>
      dsimp only
      rw [← scanRest_bound number enough le_rfl]
      simp [scanLine, outside, level, single, blanks, code, within, unified, placed]

/-- A line that may begin a statement. -/
theorem linesFrom_margin (outside : state.text = none) (level : state.level = 0)
    (single : state.joined = false) (unified : '\r' ∉ cs) :
    linesFrom number state cs = marginFrom number state 0 cs := by
  by_cases present : cs = []
  · subst present
    rfl
  obtain ⟨blanks, behind⟩ := columnOf_firstLine 0 cs
  have unified : '\r' ∉ (columnOf 0 cs).2 := fun member => unified ((columnOf_suffix 0 cs).mem member)
  rw [marginFrom]
  generalize columnOf 0 cs = found at blanks behind unified
  obtain ⟨column, _ | ⟨c, rest⟩⟩ := found
  -- Nothing but blanks is left of the code.
  · refine (linesFrom_of_scanLine state present ?_).trans ?_
    · simp [scanLine, outside, level, single, blanks, firstLine]
    · rw [← behind]
      rfl
  obtain ⟨line, first⟩ : ∃ line, firstLine (c :: rest) = c :: line := by
    rw [firstLine]
    split <;> exact ⟨_, rfl⟩
  have cr : c ≠ '\r' := fun same => unified (same ▸ List.mem_cons_self)
  dsimp only at blanks behind unified ⊢
  rw [first] at blanks
  have scanned := scanLine_margin number outside level single blanks cr
  by_cases note : c = '#' ∨ c = '\n'
  -- The line has no statement, and the scan passes it as a whole.
  · rw [if_pos note] at scanned ⊢
    rw [linesFrom_of_scanLine state present scanned, ← behind]
    rcases note with rfl | rfl
    · exact (restFrom_note fun member => unified (List.mem_cons_of_mem _ member)).symm
    · exact restFrom_newline.symm
  · rw [if_neg note] at scanned ⊢
    cases placed : adjust column state.columns with
    | none =>
      rw [linesFrom_eq present, scanned, placed]
      rfl
    | some columns =>
      rw [placed] at scanned
      rw [linesFrom_of_scanLine _ present scanned, ← behind, ← first]
      rfl

end ProbeWeave.Weaving.Indent
