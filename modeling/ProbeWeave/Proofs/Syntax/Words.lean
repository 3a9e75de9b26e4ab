import ProbeWeave.Proofs.Syntax.Reading
import ProbeWeave.Syntax.Grammar.Expression

/-! # Expressions have a text

Every expression reads a word: an operation begins with an operand, an operand with an atom, and an
atom with a word of its own. Where rules refer to each other the argument is an induction on the
depth of nesting.
-/

namespace ProbeWeave.Syntax

open Reading

variable {last : Nat}

/-- A list of items has at least one. -/
theorem Reading.words_commaSeparated {α : Type} {more : Token → Bool} {item : Reading α}
    (words : Words last item) (n : Nat) : Words last (commaSeparated more item n) := by
  cases n with
  | zero => exact words_fail
  | succ n => exact words.bind

namespace Inner

/-- What the rules further in have to be for those made of them to read words. -/
structure Verbal (last : Nat) (inner : Inner) : Prop where
  positive : 0 < inner.bound
  expression : Words last inner.expression
  factor : Words last inner.factor

variable {inner : Inner}

theorem wordsAt_next (literal : List Char) : WordsAt last (.string literal) strings.next := by
  refine WordsAt.peek (WordsAt.still here_still fun p => WordsAt.still unwrap_still fun content => ?_)
  exact (wordsAt_skip rfl).bind

theorem wordsAt_strings (verbal : inner.Verbal last) (literal : List Char) :
    WordsAt last (.string literal) inner.strings := by
  obtain ⟨n, bound⟩ := Nat.exists_eq_add_one_of_ne_zero (Nat.pos_iff_ne_zero.mp verbal.positive)
  refine WordsAt.still here_still fun p => WordsAt.peek (WordsAt.bind ?_)
  rw [bound]
  exact (wordsAt_next literal).bind

theorem words_atom (verbal : inner.Verbal last) : Words last inner.atom := by
  refine Words.peek fun token => ?_
  split
  case h_3 => exact wordsAt_strings verbal _
  all_goals
    first
    | exact (wordsAt_skip rfl).bind
    | exact wordsAt_fail

theorem words_primary (verbal : inner.Verbal last) : Words last inner.primary :=
  Words.after fun _ => (words_atom verbal).bind

theorem words_power (verbal : inner.Verbal last) : Words last inner.power := by
  refine Words.after fun awaited => Words.ite ?_ ?_
  · exact (words_primary verbal).map.bind
  · exact (words_primary verbal).bind

theorem words_signed (verbal : inner.Verbal last) : Words last inner.signed :=
  Words.after fun _ => (words_power verbal).bind

theorem words_leftChain {link : Token → Option BinaryOp} {operand : Reading Expr}
    (words : Words last operand) : Words last (inner.leftChain link operand) :=
  words.bind

theorem words_bitOr (verbal : inner.Verbal last) : Words last inner.bitOr := by
  unfold bitOr
  repeat apply words_leftChain
  exact verbal.factor

theorem words_inversion (verbal : inner.Verbal last) : Words last inner.inversion :=
  Words.after fun _ => (words_bitOr verbal).bind.bind

theorem words_booleanRun {word : String} {op : BoolOp} {operand : Reading Expr}
    (words : Words last operand) : Words last (inner.booleanRun word op operand) :=
  words.bind

theorem words_disjunction (verbal : inner.Verbal last) : Words last inner.disjunction :=
  words_booleanRun (words_booleanRun (words_inversion verbal))

theorem words_wholeExpression (verbal : inner.Verbal last) : Words last inner.wholeExpression := by
  refine Words.after fun isLambda => Words.ite ?_ ?_
  · exact (words_expect rfl).bind
  · exact (words_disjunction verbal).bind

theorem words_starExpression (verbal : inner.Verbal last) : Words last inner.starExpression := by
  refine Words.after fun starred => Words.ite ?_ verbal.expression
  exact (words_bitOr verbal).bind

theorem words_starExpressions (verbal : inner.Verbal last) : Words last inner.starExpressions :=
  (words_commaSeparated (words_starExpression verbal) _).bind

theorem words_yieldOrStarExpressions (verbal : inner.Verbal last) :
    Words last inner.yieldOrStarExpressions := by
  refine Words.after fun yields => Words.ite ?_ (words_starExpressions verbal)
  exact (words_expect rfl).bind

end Inner

/-- Rules read words at every depth of nesting. -/
theorem words_readWithin {bound : Nat} (positive : 0 < bound) (n : Nat) (rule : Rule) :
    Words last (readWithin bound n rule) := by
  induction n generalizing rule with
  | zero => exact words_fail
  | succ n ih =>
    cases rule
    · exact Inner.words_wholeExpression ⟨positive, ih .expression, ih .factor⟩
    · exact Inner.words_signed ⟨positive, ih .expression, ih .factor⟩

theorem Inner.verbal_ofBound {bound : Nat} (positive : 0 < bound) :
    (Inner.ofBound bound).Verbal last :=
  ⟨positive, words_readWithin positive bound .expression, words_readWithin positive bound .factor⟩

end ProbeWeave.Syntax
