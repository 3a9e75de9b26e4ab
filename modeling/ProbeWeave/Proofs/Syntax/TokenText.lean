import ProbeWeave.Syntax.Lexer

/-! # Tokens and the text they are cut from

Every step of the lexer cuts its text in two: what it passes and what follows. Nothing is dropped in
between, so positions can be counted along the text.
-/

namespace ProbeWeave.Syntax.Lexer

theorem digitRun_append {isDigit : Char → Bool} {cs digits rest : List Char}
    (run : digitRun isDigit cs = some (digits, rest)) : digits ++ rest = cs := by
  fun_induction digitRun isDigit cs generalizing digits rest with
  | case1 d tail holds ih =>
    obtain ⟨⟨more, after⟩, later, same⟩ := Option.map_eq_some_iff.mp run
    cases same
    rw [List.cons_append, ih later]
  | case2 => cases run
  | case3 => cases run
  | case4 c tail _ _ holds ih =>
    obtain ⟨⟨more, after⟩, later, same⟩ := Option.map_eq_some_iff.mp run
    cases same
    rw [List.cons_append, ih later]
  | case5 => cases run; rfl
  | case6 => cases run; rfl

theorem radixNumber_append {base : Nat} {isDigit : Char → Bool} {mark cs text rest : List Char}
    {value : Constant} (read : radixNumber base isDigit mark cs = some (text, value, rest)) :
    text ++ rest = mark ++ cs := by
  simp only [radixNumber, bind, Option.bind_eq_some_iff] at read
  obtain ⟨⟨digits, after⟩, run, read⟩ := read
  split at read
  · cases read
  · cases read
    rw [List.append_assoc, digitRun_append run]

theorem exponentPart_append {cs text rest : List Char} {value : Int}
    (read : exponentPart cs = some (text, value, rest)) : text ++ rest = cs := by
  unfold exponentPart at read
  split at read
  · rename_i e tail
    split at read
    · split at read
      · rename_i sign d more
        split at read
        · split at read
          · simp only [bind, Option.bind_eq_some_iff] at read
            obtain ⟨⟨digits, after⟩, run, read⟩ := read
            cases read
            rw [List.cons_append, List.cons_append, digitRun_append run, List.tail_cons]
          · cases read
        · split at read
          · simp only [bind, Option.bind_eq_some_iff] at read
            obtain ⟨⟨digits, after⟩, run, read⟩ := read
            cases read
            rw [List.cons_append, digitRun_append run]
          · cases read; rfl
      · split at read
        · cases read; rfl
        · split at read
          · cases read
          · cases read; rfl
      · cases read; rfl
    · cases read; rfl
  · cases read; rfl

theorem wholePart_append {cs whole rest : List Char} (read : wholePart cs = some (whole, rest)) :
    whole ++ rest = cs := by
  unfold wholePart at read
  split at read
  · cases read; rfl
  · exact digitRun_append read

theorem pointPart_append (cs : List Char) : (pointPart cs).1 ++ (pointPart cs).2 = cs := by
  unfold pointPart
  split <;> rfl

theorem fractionPart_append {pointed : Bool} {cs fraction rest : List Char}
    (read : fractionPart pointed cs = some (fraction, rest)) : fraction ++ rest = cs := by
  unfold fractionPart at read
  split at read
  · exact digitRun_append read
  · cases read; rfl

theorem decimalNumber_append {cs text rest : List Char} {value : Constant}
    (read : decimalNumber cs = some (text, value, rest)) : text ++ rest = cs := by
  simp only [decimalNumber, bind, Option.bind_eq_some_iff] at read
  obtain ⟨⟨whole, behindWhole⟩, wholeRead, ⟨fraction, behindFraction⟩, fractionRead,
    ⟨exponentText, exponent, behindExponent⟩, exponentRead, read⟩ := read
  dsimp only at fractionRead exponentRead read
  have parts : whole ++ (pointPart behindWhole).1 ++ fraction ++ exponentText ++ behindExponent =
      cs := by
    rw [List.append_assoc, List.append_assoc, List.append_assoc, exponentPart_append exponentRead,
      fractionPart_append fractionRead, pointPart_append, wholePart_append wholeRead]
  rw [← parts]
  split at read
  · split at read
    · cases read
      exact List.append_assoc ..
    · cases read
  · split at read
    · cases read
      exact List.append_assoc ..
    · cases read
  · split at read
    · obtain ⟨_, _, same⟩ := Option.map_eq_some_iff.mp read
      cases same
      rfl
    · cases read

theorem number_append {cs text rest : List Char} {value : Constant}
    (read : number cs = some (text, value, rest)) : text ++ rest = cs := by
  unfold number at read
  split at read
  · split at read
    · exact radixNumber_append read
    · split at read
      · exact radixNumber_append read
      · split at read
        · exact radixNumber_append read
        · exact decimalNumber_append read
  · exact decimalNumber_append read

theorem stringTail_append {quote : Char} {triple : Bool} {cs body rest : List Char}
    (read : stringTail quote triple cs = some (body, rest)) : body ++ rest = cs := by
  fun_induction stringTail quote triple cs generalizing body rest
  all_goals
    first
    | cases read; done
    | cases read; rfl
    | rename_i ih
      obtain ⟨⟨more, after⟩, later, same⟩ := Option.map_eq_some_iff.mp read
      cases same
      simp only [List.cons_append, ih later]

theorem stringLiteral_append {cs body rest : List Char}
    (read : stringLiteral cs = some (body, rest)) : body ++ rest = cs := by
  unfold stringLiteral at read
  split at read
  · split at read
    · obtain ⟨⟨more, after⟩, later, same⟩ := Option.map_eq_some_iff.mp read
      cases same
      simp only [List.cons_append, stringTail_append later]
    · split at read
      · cases read; rfl
      · obtain ⟨⟨more, after⟩, later, same⟩ := Option.map_eq_some_iff.mp read
        cases same
        simp only [List.cons_append, stringTail_append later]
  · split at read
    · cases read; rfl
    · cases read
  · cases read

theorem operator_append {cs op rest : List Char} (read : operator cs = some (op, rest)) :
    op ++ rest = cs := by
  unfold operator at read
  split at read
  · cases read
  · obtain ⟨found, front, same⟩ := Option.map_eq_some_iff.mp read
    cases same
    have leads : op.isPrefixOf cs = true := by simpa using List.find?_some front
    exact List.prefix_iff_eq_append.mp (List.isPrefixOf_iff_prefix.mp leads)

/-- A token is cut from the front of a text. -/
theorem nextToken_append {cs text rest : List Char} {token : Token}
    (read : nextToken cs = some (token, text, rest)) : text ++ rest = cs := by
  unfold nextToken at read
  split at read
  · cases read
  · rename_i c tail
    dsimp only at read
    split at read
    · split at read
      · obtain ⟨⟨body, after⟩, literal, same⟩ := Option.map_eq_some_iff.mp read
        cases same
        rw [List.append_assoc, stringLiteral_append literal, List.takeWhile_append_dropWhile]
      · cases read
        exact List.takeWhile_append_dropWhile
    · split at read
      · obtain ⟨⟨_, _, _⟩, numeral, same⟩ := Option.map_eq_some_iff.mp read
        cases same
        exact number_append numeral
      · split at read
        · obtain ⟨⟨_, _⟩, literal, same⟩ := Option.map_eq_some_iff.mp read
          cases same
          exact stringLiteral_append literal
        · obtain ⟨⟨_, _⟩, symbol, same⟩ := Option.map_eq_some_iff.mp read
          cases same
          exact operator_append symbol

/-- The margin of a line is cut from the front of a text, too. -/
theorem margin_append {now : Indentation} {marked : Nat} {passed cs : List Char} {found : Margin}
    (read : margin now marked passed cs = some found) :
    found.passed ++ found.rest = passed.reverse ++ cs := by
  fun_induction margin now marked passed cs
  all_goals
    first
    | cases read; done
    | cases read; rfl
    | rename_i ih
      rw [ih read]
      simp

end ProbeWeave.Syntax.Lexer
