import ProbeWeave.Outcome
import ProbeWeave.Project.Annotation
import ProbeWeave.Proofs.Syntax.Reading

/-! # Texts in an expression are shorter than its source

A text has quotes around it in the source, and no escape stands for more code points than it has
characters. So each token has room for a text that is shorter than the token, the tokens of a source
have room for less than the source is long, and what a rule reads fits in the room of the tokens in
front of it. This bounds how often an annotation can be a text that is an annotation again.
-/

namespace ProbeWeave

namespace Syntax

namespace Literal

theorem hexNumber?_length {count value : Nat} {cs rest : List Char}
    (read : hexNumber? count cs = some (value, rest)) : rest.length + count = cs.length := by
  unfold hexNumber? at read
  dsimp only at read
  split at read
  · rename_i digits
    obtain ⟨-, rfl⟩ := Prod.ext_iff.mp (Option.some.inj read)
    rw [Bool.and_eq_true, beq_iff_eq, List.length_take] at digits
    rw [List.length_drop]
    omega
  · cases read

theorem escape_length {number : Option (Nat × List Char)} {decode : List Char → Option (List Nat)}
    {points : List Nat} {room : Nat}
    (behind : ∀ value rest, number = some (value, rest) → rest.length < room)
    (decoded : ∀ rest {points}, decode rest = some points → points.length ≤ rest.length)
    (read : decodeWithin.escape number decode = some points) : points.length ≤ room := by
  obtain ⟨⟨value, rest⟩, found, continued⟩ := Option.bind_eq_some_iff.mp read
  obtain ⟨later, complete, rfl⟩ := Option.map_eq_some_iff.mp continued
  have short := behind value rest found
  have shorter := decoded rest complete
  rw [List.length_cons]
  omega

/-- No escape stands for more code points than it has characters. -/
theorem decodeWithin_length {wide : Bool} {n : Nat} {cs : List Char} {points : List Nat}
    (read : decodeWithin wide n cs = some points) : points.length ≤ cs.length := by
  fun_induction decodeWithin wide n cs generalizing points with
  | case1 | case2 => simp [← Option.some.inj read]
  | case3 _ rest ih => exact Nat.le_add_right_of_le (Nat.le_add_right_of_le (ih read))
  | case4 _ _ _ _ _ _ ih =>
    obtain ⟨later, complete, rfl⟩ := Option.map_eq_some_iff.mp read
    exact Nat.succ_le_succ (Nat.le_add_right_of_le (ih complete))
  | case5 =>
    rename_i ih
    obtain ⟨later, complete, rfl⟩ := Option.map_eq_some_iff.mp read
    have shorter := ih complete
    simp only [List.length_cons, List.length_drop] at shorter ⊢
    omega
  | case6 _ _ rest _ _ _ _ ih =>
    refine escape_length (fun value behind number => ?_) ih read
    have := hexNumber?_length number
    simp only [List.length_cons]
    omega
  | case7 _ _ rest _ _ _ _ _ ih =>
    refine escape_length (fun value behind number => ?_) ih read
    have := hexNumber?_length number
    simp only [List.length_cons]
    omega
  | case8 _ _ rest _ _ _ _ _ _ ih =>
    refine escape_length (fun value behind number => ?_) ih read
    have := hexNumber?_length (Option.filter_eq_some_iff.mp number).1
    simp only [List.length_cons]
    omega
  | case9 => cases read
  | case10 _ _ _ _ _ _ _ _ _ _ ih =>
    obtain ⟨later, complete, rfl⟩ := Option.map_eq_some_iff.mp read
    exact Nat.succ_le_succ (Nat.succ_le_succ (ih complete))
  | case11 _ _ _ _ _ ih =>
    obtain ⟨later, complete, rfl⟩ := Option.map_eq_some_iff.mp read
    exact Nat.succ_le_succ (ih complete)

/-- The code points of a literal that is no formatted text. -/
def Content.points : Content → List Nat
  | text points => points
  | _ => []

/-- The quotes around a literal are not part of it. -/
theorem split_length (literal : List Char) :
    (split literal).2.2.length ≤ literal.length - 1 := by
  unfold split
  extract_lets isQuote mark quoted width body
  have inside : quoted.length ≤ literal.length := (List.dropWhile_sublist _).length_le
  clear_value quoted
  have quotes : 1 ≤ width := by
    simp only [width]
    split
    · split <;> omega
    · omega
  simp only [List.length_take, body, List.length_drop]
  omega

theorem decodeText_length {raw : Bool} {cs : List Char} {points : List Nat}
    (read : decodeText raw cs = some points) : points.length ≤ cs.length := by
  unfold decodeText at read
  split at read
  · simp [← Option.some.inj read]
  · exact decodeWithin_length read

theorem content_length {start : Position} {literal : List Char} {found : Content}
    (read : content start literal = some found) : found.points.length ≤ literal.length - 1 := by
  have inside := split_length literal
  unfold content at read
  generalize split literal = parts at read inside
  obtain ⟨mark, width, body⟩ := parts
  dsimp only at read inside
  split at read
  · obtain ⟨⟨pieces, _, rest⟩, -, ended⟩ := Option.bind_eq_some_iff.mp read
    dsimp only at ended
    split at ended
    · obtain rfl := Option.some.inj ended
      exact Nat.zero_le _
    · cases ended
  · split at read
    · obtain ⟨values, -, rfl⟩ := Option.map_eq_some_iff.mp read
      exact Nat.zero_le _
    · obtain ⟨points, decoded, rfl⟩ := Option.map_eq_some_iff.mp read
      exact Nat.le_trans (decodeText_length decoded) inside

end Literal

/-- How many code points a token can add to a text. -/
def Token.textRoom : Token → Nat
  | string literal => literal.length - 1
  | number (.text points _) => points.length
  | _ => 0

/-- How many code points tokens can add to texts. -/
def textRoom : List Lexeme → Nat
  | [] => 0
  | x :: xs => x.token.textRoom + textRoom xs

namespace Lexer

theorem textRoom_marks {tokens : List Token} (none : ∀ token ∈ tokens, token.textRoom = 0)
    (position : Position) (xs : List Lexeme) :
    textRoom (tokens.map (mark · position) ++ xs) = textRoom xs := by
  induction tokens with
  | nil => rfl
  | cons token rest ih =>
    obtain ⟨here, others⟩ := List.forall_mem_cons.mp none
    rw [List.map_cons, List.cons_append, textRoom, ih others]
    simp [mark, here]

theorem radixNumber_textRoom {base : Nat} {isDigit : Char → Bool} {sign cs text rest : List Char}
    {value : Constant} (read : radixNumber base isDigit sign cs = some (text, value, rest)) :
    (Token.number value).textRoom = 0 := by
  obtain ⟨⟨digits, behind⟩, -, read⟩ := Option.bind_eq_some_iff.mp read
  dsimp only at read
  split at read
  · cases read
  · cases read
    rfl

theorem decimalValue_textRoom {whole : List Char} {isWhole : Bool} {bits : UInt64} {value : Constant}
    (read : decimalValue whole isWhole bits = some value) : (Token.number value).textRoom = 0 := by
  unfold decimalValue at read
  dsimp only at read
  split at read
  · split at read
    · cases read
    · split at read <;> cases read
      rfl
  · cases read
    rfl

theorem decimalNumber_textRoom {cs text rest : List Char} {value : Constant}
    (read : decimalNumber cs = some (text, value, rest)) : (Token.number value).textRoom = 0 := by
  obtain ⟨⟨whole, behind⟩, -, read⟩ := Option.bind_eq_some_iff.mp read
  obtain ⟨⟨fraction, behind'⟩, -, read⟩ := Option.bind_eq_some_iff.mp read
  obtain ⟨⟨exponentText, exponent, last⟩, -, read⟩ := Option.bind_eq_some_iff.mp read
  dsimp only at read
  split at read
  · split at read <;> cases read
    rfl
  · split at read <;> cases read
    rfl
  · split at read
    · obtain ⟨found, valued, same⟩ := Option.map_eq_some_iff.mp read
      cases same
      exact decimalValue_textRoom valued
    · cases read

/-- No number is a text. -/
theorem number_textRoom {cs text rest : List Char} {value : Constant}
    (read : number cs = some (text, value, rest)) : (Token.number value).textRoom = 0 := by
  unfold number at read
  split at read
  · split at read
    · exact radixNumber_textRoom read
    · split at read
      · exact radixNumber_textRoom read
      · split at read
        · exact radixNumber_textRoom read
        · exact decimalNumber_textRoom read
  · exact decimalNumber_textRoom read

theorem nextToken_textRoom {cs text rest : List Char} {token : Token}
    (cut : nextToken cs = some (token, text, rest)) : token.textRoom ≤ text.length - 1 := by
  unfold nextToken at cut
  split at cut
  · cases cut
  · dsimp only at cut
    split at cut
    · split at cut
      · obtain ⟨_, _, same⟩ := Option.map_eq_some_iff.mp cut
        cases same
        exact Nat.le_refl _
      · cases cut
        unfold wordToken
        dsimp only
        split
        · exact Nat.zero_le _
        · split <;> exact Nat.zero_le _
    · split at cut
      · obtain ⟨⟨_, _, _⟩, numeral, same⟩ := Option.map_eq_some_iff.mp cut
        cases same
        exact number_textRoom numeral ▸ Nat.zero_le _
      · split at cut
        · obtain ⟨_, _, same⟩ := Option.map_eq_some_iff.mp cut
          cases same
          exact Nat.le_refl _
        · obtain ⟨_, _, same⟩ := Option.map_eq_some_iff.mp cut
          cases same
          exact Nat.zero_le _

/-- Tokens have no more room for texts than the text they are cut from, less the quotes. -/
theorem Cut.textRoom_le {p : Position} {cs : List Char} {xs : List Lexeme} (cut : Cut p cs xs) :
    textRoom xs ≤ cs.length - 1 := by
  induction cut with
  | pass _ _ ih => exact Nat.le_trans ih (by rw [List.length_append]; omega)
  | @margin p cs xs tokens bare _ ih =>
    have none : ∀ token ∈ tokens, token.textRoom = 0 := by
      intro token member
      have margin := bare token member
      cases token <;> first | rfl | cases margin
    rwa [textRoom_marks none]
  | newline _ ih =>
    rw [textRoom, List.length_cons]
    simp only [mark, Token.textRoom]
    omega
  | word cut _ ih =>
    have here := nextToken_textRoom cut
    rw [textRoom, List.length_append]
    dsimp only
    omega
  | @final p cs token ends => cases token <;> first | exact Nat.zero_le _ | cases ends

theorem scan_textRoom (n : Nat) (state : State) (cs : List Char) :
    textRoom (scan n state cs) ≤ cs.length - 1 :=
  (scan_cut n state cs).textRoom_le

end Lexer

theorem unifyBreaks_length (cs : List Char) : (Text.unifyBreaks cs).length ≤ cs.length := by
  fun_induction Text.unifyBreaks cs with
  | case1 => exact Nat.le_refl _
  | case2 rest ih => exact Nat.succ_le_succ (Nat.le_succ_of_le ih)
  | case3 rest _ ih | case4 _ rest _ _ ih => exact Nat.succ_le_succ ih

/-- The quotes of a text take up room, too. -/
theorem lexemesAt_textRoom (position : Position) (cs : List Char) :
    textRoom (lexemesAt position false cs) ≤ cs.length - 1 := by
  unfold lexemesAt
  simp only [Bool.false_and, Bool.false_eq_true, if_false]
  exact Nat.le_trans (Lexer.scan_textRoom _ _ _) (Nat.sub_le_sub_right (unifyBreaks_length cs) 1)

open Project (textBound)

namespace Cursor

/-- Tokens that come to an end and have no more than some room for texts. -/
structure Roomy (room : Nat) (c : Cursor) : Prop where
  ended : Lexer.IsEnded c.rest
  room_le : textRoom c.rest ≤ room

namespace Roomy

variable {room : Nat} {c : Cursor}

/-- A token that is passed leaves its room, if it is not the last one. -/
theorem pass (roomy : c.Roomy room) : c.next.Roomy room ∧ (c.token.endsText = false →
    c.token.textRoom ≤ room ∧ c.next.Roomy (room - c.token.textRoom)) := by
  have inside := roomy.room_le
  rcases cases_of_ended roomy.ended with ⟨x, rest, ends⟩ | ⟨x, y, more, rest⟩
  · have stays : c.next = c := by simp only [next, rest]
    refine ⟨stays.symm ▸ roomy, fun goesOn => ?_⟩
    simp [token, rest, ends] at goesOn
  · have behind : c.next.rest = y :: more := by simp only [next, rest]
    have first : c.token = x.token := by simp [token, rest]
    have ended : Lexer.IsEnded c.next.rest := by
      obtain ⟨z, final, ends⟩ := roomy.ended
      rw [rest, List.getLast?_cons_cons] at final
      exact ⟨z, behind ▸ final, ends⟩
    rw [rest, textRoom, ← behind, ← first] at inside
    exact ⟨⟨ended, by omega⟩, fun _ => ⟨by omega, ended, by omega⟩⟩

end Roomy

end Cursor

namespace Reading

variable {α β : Type} {room : Nat} {reading : Reading α} {next : α → Reading β}
  {Q : α → Cursor → Prop} {R : β → Cursor → Prop}

theorem ensures_roomy : Ensures (Cursor.Roomy room) reading fun _ => Cursor.Roomy room := by
  intro c d a roomy success
  exact (reading.forward success).keeps (fun _ roomy => roomy.pass.1) roomy

/-- A step whose value does not matter. -/
theorem roomy_step (rest : ∀ a, Ensures (Cursor.Roomy room) (next a) R) :
    Ensures (Cursor.Roomy room) (reading >>= next) R :=
  ensures_roomy.bind rest

/-- A step with something known of its value. -/
theorem roomy_bind {S : α → Prop} (first : Ensures (Cursor.Roomy room) reading fun a _ => S a)
    (rest : ∀ a, S a → Ensures (Cursor.Roomy room) (next a) R) :
    Ensures (Cursor.Roomy room) (reading >>= next) R := by
  intro c d b roomy success
  obtain ⟨a, e, read, success⟩ := run_bind.mp success
  exact rest a (first c e a roomy read) e d b (ensures_roomy c e a roomy read) success

/-- Whether the texts in the expression that a rule reads fit in a room. -/
def Fits (room : Nat) (reading : Reading Expr) : Prop :=
  Ensures (Cursor.Roomy room) reading fun e _ => textBound e ≤ room + 1

theorem fits_pure {e : Expr} (fits : textBound e ≤ room + 1) : Fits room (pure e) :=
  ensures_pure fun _ _ => fits

theorem ensures_error {failure : Failure} {P : Cursor → Prop} :
    Ensures P (error failure : Reading α) Q := by
  intro c d a _ success
  cases success

theorem fits_fail : Fits room fail :=
  ensures_fail

/-- An optional expression fits if there is none or it does. -/
theorem fits_unwrap {found : Option Expr} (fits : ∀ e ∈ found, textBound e ≤ room + 1) :
    Fits room (unwrap found) := by
  cases found with
  | none => exact fits_fail
  | some e => exact fits_pure (fits e rfl)

/-- Items of a list fit if one does. -/
theorem ensures_commaSeparated {more : Token → Bool} {item : Reading Expr} (fits : Fits room item)
    (n : Nat) : Ensures (Cursor.Roomy room) (commaSeparated more item n) fun items _ =>
      ∀ e ∈ items.1, textBound e ≤ room + 1 := by
  induction n with
  | zero => exact ensures_fail
  | succ n ih =>
    refine roomy_bind fits fun first here => ?_
    have only : ∀ e ∈ [first], textBound e ≤ room + 1 := by simpa using here
    refine roomy_step fun parted => Ensures.ite ?_ (ensures_pure fun _ _ => only)
    refine roomy_step fun token => Ensures.ite ?_ (ensures_pure fun _ _ => only)
    exact roomy_bind ih fun items others =>
      ensures_pure fun _ _ => List.forall_mem_cons.mpr ⟨here, others⟩

end Reading

namespace Inner

variable {room : Nat} {inner : Inner}

open Reading

theorem pushPoints_append (mark : Bool) (before points : List Nat) :
    pushPoints mark points (pushPoints mark before []) = pushPoints mark (before ++ points) [] := by
  cases before with
  | nil => rfl
  | cons => cases points <;> simp [pushPoints]

/-- Literals that follow one another stand for a text of all their code points. -/
theorem foldlM_pushPiece (mark : Bool)
    (specification : List Literal.Piece → Except Failure (Option Expr))
    {contents : List Literal.Content}
    (plain : ∀ content ∈ contents, ∀ pieces, content ≠ .template pieces) (before : List Nat) :
    (contents.flatMap fun
      | .text points => [Literal.Piece.literal points]
      | .template pieces => pieces
      | .bytes _ => []).foldlM (inner.pushPiece mark specification) (pushPoints mark before []) =
        .ok (pushPoints mark (before ++ contents.flatMap Literal.Content.points) []) := by
  induction contents generalizing before with
  | nil =>
    rw [List.flatMap_nil (f := Literal.Content.points), List.append_nil]
    rfl
  | cons content rest ih =>
    obtain ⟨here, others⟩ := List.forall_mem_cons.mp plain
    cases content with
    | text points =>
      have pushed := ih others (before ++ points)
      rw [← pushPoints_append, List.append_assoc] at pushed
      exact pushed
    | bytes values => exact ih others before
    | template pieces => exact absurd rfl (here pieces)

theorem joinContents_textBound {mark : Bool} {contents : List Literal.Content} {e : Expr}
    (success : inner.joinContents mark contents = .ok e) :
    textBound e ≤ (contents.flatMap Literal.Content.points).length + 1 := by
  unfold joinContents at success
  dsimp only at success
  split at success
  · cases success
    exact Nat.zero_le _
  · obtain ⟨parts, joined, success⟩ := Outcome.bind_eq_ok.mp success
    split at success
    · cases success
      exact Nat.zero_le _
    · rename_i formatted
      have plain : ∀ content ∈ contents, ∀ pieces, content ≠ .template pieces := by
        rintro _ member pieces rfl
        exact formatted (List.any_eq_true.mpr ⟨_, member, rfl⟩)
      rw [joinPieces] at joined
      obtain rfl := Except.ok.inj (joined.symm.trans (foldlM_pushPiece mark _ plain []))
      rw [List.nil_append] at success
      cases points : contents.flatMap Literal.Content.points with
      | nil =>
        rw [points] at success
        cases success
        exact Nat.le_refl _
      | cons first rest =>
        rw [points] at success
        cases success
        exact Nat.le_refl _

/-- The next literal takes its room with it. -/
theorem next_room {room : Nat} {c d : Cursor} {found : Option Literal.Content}
    (roomy : c.Roomy room) (success : strings.next.run c = .ok (found, d)) :
    ∀ content ∈ found, content.points.length ≤ room ∧ d.Roomy (room - content.points.length) := by
  obtain ⟨token, e, looked, success⟩ := run_bind.mp success
  cases looked
  split at success
  · rename_i literal same
    obtain ⟨position, e, placed, success⟩ := run_bind.mp success
    cases placed
    obtain ⟨content, e, unwrapped, success⟩ := run_bind.mp success
    generalize whole : Literal.content _ literal = read at unwrapped
    cases read with
    | none => cases unwrapped
    | some content =>
      cases unwrapped
      cases success
      rintro _ ⟨⟩
      have known : c.token = .string literal := same
      obtain ⟨enough, left⟩ := roomy.pass.2 (known ▸ rfl)
      have short : content.points.length ≤ c.token.textRoom := known ▸ Literal.content_length whole
      exact ⟨Nat.le_trans short enough, left.ended,
        Nat.le_trans left.room_le (Nat.sub_le_sub_left short room)⟩
  · obtain ⟨rfl, rfl⟩ := run_pure.mp success
    simp

/-- Literals that follow one another are read one by one. -/
theorem collect_next_length {room : Nat} (n : Nat) :
    Ensures (Cursor.Roomy room) (collect strings.next n) fun contents _ =>
      (contents.flatMap Literal.Content.points).length ≤ room := by
  induction n generalizing room with
  | zero => exact ensures_pure fun _ _ => Nat.zero_le _
  | succ n ih =>
    intro c d contents roomy success
    obtain ⟨found, e, read, success⟩ := run_bind.mp success
    cases found with
    | none =>
      obtain ⟨rfl, rfl⟩ := run_pure.mp success
      exact Nat.zero_le _
    | some content =>
      obtain ⟨rest, e', others, success⟩ := run_bind.mp success
      obtain ⟨rfl, rfl⟩ := run_pure.mp success
      obtain ⟨short, left⟩ := next_room roomy read content rfl
      have later := ih e e' rest left others
      rw [List.flatMap_cons, List.length_append]
      omega

theorem fits_strings : Fits room inner.strings := by
  refine roomy_step fun position => roomy_step fun first => roomy_bind (collect_next_length _) ?_
  intro contents short
  extract_lets joined
  have fits (done : Unit) : Fits room (joined done) := by
    simp only [joined]
    split
    · rename_i e success
      exact fits_pure (Nat.le_trans (joinContents_textBound success) (Nat.succ_le_succ short))
    · exact ensures_error
  exact Ensures.ite (roomy_step fits) (fits ())

/-- The texts in what the rules further in read have to fit. -/
structure Fitting (room : Nat) (inner : Inner) : Prop where
  expression : Fits room inner.expression
  factor : Fits room inner.factor

/-- What is made of several expressions is no text and leads to none. -/
theorem fits_made {e : Expr} (made : textBound e = 0) : Fits room (pure e) :=
  fits_pure (made ▸ Nat.zero_le _)

theorem fits_namedExpression (fitting : inner.Fitting room) : Fits room inner.namedExpression := by
  refine roomy_step fun binds => Ensures.ite ?_ fitting.expression
  exact roomy_step fun id => roomy_step fun _ => roomy_step fun value => fits_made rfl

theorem fits_leftChain {link : Token → Option BinaryOp} {operand : Reading Expr}
    (fits : Fits room operand) : Fits room (inner.leftChain link operand) := by
  have extend (n : Nat) (left : Expr) (here : textBound left ≤ room + 1) :
      Fits room (leftChain.extend link operand n left) := by
    induction n generalizing left with
    | zero => exact fits_pure here
    | succ n ih =>
      refine roomy_step fun token => ?_
      split
      · refine roomy_step fun _ => roomy_bind fits fun right there => ih _ ?_
        exact Nat.max_le.mpr ⟨here, there⟩
      · exact fits_pure here
  exact roomy_bind fits fun left => extend inner.bound left

theorem fits_bitOr (fitting : inner.Fitting room) : Fits room inner.bitOr := by
  unfold bitOr
  repeat apply fits_leftChain
  exact fitting.factor

theorem fits_comparison (fitting : inner.Fitting room) : Fits room inner.comparison := by
  refine roomy_bind (fits_bitOr fitting) fun left fits => roomy_step fun links => ?_
  exact Ensures.ite (fits_pure fits) (fits_made rfl)

theorem textBound_foldl_not (negations : List Unit) (e : Expr) :
    textBound (negations.foldl (fun e _ => .unary .not e) e) ≤ textBound e := by
  induction negations generalizing e with
  | nil => exact Nat.le_refl _
  | cons _ rest ih => exact Nat.le_trans (ih _) (Nat.zero_le _)

theorem fits_inversion (fitting : inner.Fitting room) : Fits room inner.inversion := by
  refine roomy_step fun negations => roomy_bind (fits_comparison fitting) fun operand fits => ?_
  exact fits_pure (Nat.le_trans (textBound_foldl_not _ _) fits)

theorem fits_booleanRun {word : String} {op : BoolOp} {operand : Reading Expr}
    (fits : Fits room operand) : Fits room (inner.booleanRun word op operand) := by
  refine roomy_bind fits fun first here => roomy_step fun rest => ?_
  exact Ensures.ite (fits_pure here) (fits_made rfl)

theorem fits_disjunction (fitting : inner.Fitting room) : Fits room inner.disjunction :=
  fits_booleanRun (fits_booleanRun (fits_inversion fitting))

theorem fits_wholeExpression (fitting : inner.Fitting room) : Fits room inner.wholeExpression := by
  refine roomy_step fun isLambda => Ensures.ite ?_ ?_
  · exact roomy_step fun _ => roomy_step fun parameters => roomy_step fun _ =>
      roomy_step fun body => fits_made rfl
  · refine roomy_bind (fits_disjunction fitting) fun body fits => ?_
    refine roomy_step fun isConditional => Ensures.ite ?_ (fits_pure fits)
    exact roomy_step fun test => roomy_step fun _ => roomy_step fun otherwise => fits_made rfl

theorem fits_starNamedExpression (fitting : inner.Fitting room) :
    Fits room inner.starNamedExpression := by
  refine roomy_step fun starred => Ensures.ite ?_ (fits_namedExpression fitting)
  exact roomy_step fun e => fits_made rfl

theorem fits_yieldExpression : Fits room inner.yieldExpression := by
  refine roomy_step fun _ => roomy_step fun delegates => Ensures.ite ?_ ?_
  · exact roomy_step fun e => fits_made rfl
  · refine roomy_step fun token => ?_
    split
    · exact roomy_step fun e => fits_made rfl
    · exact fits_made rfl

theorem fits_subscriptEntry (fitting : inner.Fitting room) : Fits room inner.subscriptEntry := by
  refine roomy_step fun starred => Ensures.ite (roomy_step fun e => fits_made rfl) ?_
  refine roomy_step fun binds => Ensures.ite (fits_namedExpression fitting) ?_
  refine roomy_step fun isOpen => ?_
  extract_lets behind
  have fits (lower : Option Expr) (here : ∀ e ∈ lower, textBound e ≤ room + 1) :
      Fits room (behind lower) := by
    refine roomy_step fun isSlice => Ensures.ite ?_ (fits_unwrap here)
    refine roomy_step fun upper => roomy_step fun stepped => Ensures.ite ?_ ?_
    all_goals exact roomy_step fun step => fits_made rfl
  refine Ensures.ite (roomy_bind (S := fun lower => ∀ e ∈ lower, textBound e ≤ room + 1) ?_ fits)
    (roomy_bind (S := fun lower => ∀ e ∈ lower, textBound e ≤ room + 1) ?_ fits)
  · exact ensures_pure fun _ _ => by simp
  · exact roomy_bind fitting.expression fun e fits => ensures_pure fun _ _ => by simpa using fits

theorem fits_subscriptIndex (fitting : inner.Fitting room) : Fits room inner.subscriptIndex := by
  refine roomy_bind (ensures_commaSeparated (fits_subscriptEntry fitting) inner.bound) ?_
  rintro ⟨entries, trailing⟩ each
  refine roomy_step fun _ => ?_
  split
  · exact fits_made rfl
  · exact fits_pure (each _ List.mem_cons_self)
  · exact fits_made rfl

theorem fits_parenthesized (fitting : inner.Fitting room) : Fits room inner.parenthesized := by
  refine roomy_step fun empty => Ensures.ite (fits_made rfl) ?_
  refine roomy_step fun yields => Ensures.ite ?_ ?_
  · exact roomy_bind fits_yieldExpression fun e fits => roomy_step fun _ => fits_pure fits
  refine roomy_bind (fits_starNamedExpression fitting) fun first fits => ?_
  refine roomy_step fun clause => Ensures.ite ?_ ?_
  · exact roomy_step fun clauses => roomy_step fun _ => fits_made rfl
  refine roomy_step fun parted => Ensures.ite ?_ ?_
  · refine roomy_step fun closed => Ensures.ite (fits_made rfl) ?_
    exact roomy_step fun rest => roomy_step fun _ => fits_made rfl
  · exact Ensures.ite ensures_fail_bind (roomy_step fun _ => fits_pure fits)

theorem fits_bracketed : Fits room inner.bracketed := by
  refine roomy_step fun empty => Ensures.ite (fits_made rfl) ?_
  refine roomy_step fun first => roomy_step fun clause => Ensures.ite ?_ ?_
  · exact roomy_step fun clauses => roomy_step fun _ => fits_made rfl
  refine roomy_step fun parted => Ensures.ite ?_ (roomy_step fun _ => fits_made rfl)
  refine roomy_step fun closed => Ensures.ite (fits_made rfl) ?_
  exact roomy_step fun rest => roomy_step fun _ => fits_made rfl

theorem fits_dictRest (first : DictItem) : Fits room (inner.dictRest first) := by
  refine roomy_step fun parted => Ensures.ite ?_ (roomy_step fun _ => fits_made rfl)
  refine roomy_step fun closed => Ensures.ite (fits_made rfl) ?_
  exact roomy_step fun rest => roomy_step fun _ => fits_made rfl

theorem fits_braced : Fits room inner.braced := by
  refine roomy_step fun empty => Ensures.ite (fits_made rfl) ?_
  refine roomy_step fun unpacks => Ensures.ite ?_ ?_
  · exact roomy_step fun item => fits_dictRest item
  refine roomy_step fun binds => roomy_step fun first => ?_
  extract_lets behind
  have fits (isKey : Bool) : Fits room (behind isKey) := by
    refine Ensures.ite ?_ ?_
    · refine roomy_step fun value => roomy_step fun clause => Ensures.ite ?_ (fits_dictRest _)
      exact roomy_step fun clauses => roomy_step fun _ => fits_made rfl
    refine roomy_step fun clause => Ensures.ite ?_ ?_
    · exact roomy_step fun clauses => roomy_step fun _ => fits_made rfl
    refine roomy_step fun parted => Ensures.ite ?_ (roomy_step fun _ => fits_made rfl)
    refine roomy_step fun closed => Ensures.ite (fits_made rfl) ?_
    exact roomy_step fun rest => roomy_step fun _ => fits_made rfl
  exact Ensures.ite (roomy_step fits) (roomy_step fits)

/-- A constant that is read as a number has its room. -/
theorem fits_number (value : Constant) :
    Ensures (fun c => Cursor.Roomy room c ∧ c.token = .number value)
      (skip >>= fun _ => pure (Expr.constant value)) fun e _ => textBound e ≤ room + 1 := by
  rintro c d e ⟨roomy, known⟩ success
  cases success
  obtain ⟨enough, -⟩ := roomy.pass.2 (known ▸ rfl)
  rw [known] at enough
  cases value with
  | text points => exact Nat.succ_le_succ enough
  | _ => exact Nat.zero_le _

theorem fits_atom (fitting : inner.Fitting room) : Fits room inner.atom := by
  refine Ensures.peek fun token => ?_
  split
  case h_2 => exact fits_number _
  all_goals refine Ensures.of (W := Cursor.Roomy room) ?_ fun c holds => holds.1
  case h_3 => exact fits_strings
  case h_8 => exact roomy_step fun _ => fits_parenthesized fitting
  case h_9 => exact roomy_step fun _ => fits_bracketed
  case h_10 => exact roomy_step fun _ => fits_braced
  case h_11 => exact fits_fail
  all_goals exact roomy_step fun _ => fits_made rfl

theorem fits_primary (fitting : inner.Fitting room) : Fits room inner.primary := by
  have trail (start : Position) (n : Nat) (e : Expr) (here : textBound e ≤ room + 1) :
      Fits room (primary.trail inner start n e) := by
    induction n generalizing e with
    | zero => exact fits_pure here
    | succ n ih =>
      refine roomy_step fun isMember => Ensures.ite ?_ ?_
      · exact roomy_step fun id => ih _ (Nat.zero_le _)
      refine roomy_step fun isCall => Ensures.ite ?_ ?_
      · exact roomy_step fun read => ih _ (Nat.zero_le _)
      refine roomy_step fun isSubscript => Ensures.ite ?_ (fits_pure here)
      exact roomy_bind (fits_subscriptIndex fitting) fun index fits => ih _ fits
  exact roomy_step fun start => roomy_bind (fits_atom fitting) fun e => trail start inner.bound e

theorem fits_power (fitting : inner.Fitting room) : Fits room inner.power := by
  refine roomy_step fun awaits => ?_
  extract_lets behind
  have fits (base : Expr) (here : textBound base ≤ room + 1) : Fits room (behind base) := by
    refine roomy_step fun raised => Ensures.ite ?_ (fits_pure here)
    exact roomy_bind fitting.factor fun exponent there => fits_pure (Nat.max_le.mpr ⟨here, there⟩)
  refine Ensures.ite ?_ (roomy_bind (fits_primary fitting) fits)
  exact roomy_bind (roomy_step fun e => fits_made rfl) fits

theorem textBound_foldr_unary (signs : List UnaryOp) (e : Expr) :
    textBound (signs.foldr .unary e) ≤ textBound e := by
  cases signs with
  | nil => exact Nat.le_refl _
  | cons => exact Nat.zero_le _

theorem fits_signed (fitting : inner.Fitting room) : Fits room inner.signed := by
  refine roomy_step fun signs => roomy_bind (fits_power fitting) fun operand fits => ?_
  exact fits_pure (Nat.le_trans (textBound_foldr_unary _ _) fits)

end Inner

/-- Texts fit at every depth of nesting. -/
theorem fits_readWithin {room : Nat} (bound n : Nat) (rule : Rule) :
    Reading.Fits room (readWithin bound n rule) := by
  induction n generalizing rule with
  | zero => exact Reading.fits_fail
  | succ n ih =>
    cases rule
    · exact Inner.fits_wholeExpression ⟨ih .expression, ih .factor⟩
    · exact Inner.fits_signed ⟨ih .expression, ih .factor⟩

/-- The texts in an expression are shorter than the text it was read from. -/
theorem parseExpression_textBound {source : String} {e : Expr}
    (read : parseExpression source = .ok e) : textBound e ≤ source.length := by
  unfold parseExpression at read
  split at read
  · cases read
  · extract_lets bound inner rule at read
    have fits (room : Nat) : Reading.Fits room rule := by
      refine Reading.roomy_bind (Reading.ensures_commaSeparated
        (fits_readWithin bound bound .expression) inner.bound) ?_
      rintro ⟨items, trailing⟩ each
      refine Reading.roomy_step fun _ => Reading.roomy_step fun _ => ?_
      split
      · exact Reading.fits_pure (each _ List.mem_cons_self)
      · exact Inner.fits_made rfl
    split at read
    · rename_i behind success
      cases read
      have room := lexemesAt_textRoom ⟨1, 0⟩ source.toList
      have short := fits _ _ _ _ ⟨Lexer.scan_isEnded _ _ _, room⟩ success
      have nonempty : source.toList.length ≠ 0 := by
        intro empty
        obtain rfl : source = "" := String.toList_eq_nil_iff.mp (List.length_eq_zero_iff.mp empty)
        cases success
      rw [← String.length_toList]
      omega
    · cases read

end Syntax

end ProbeWeave
