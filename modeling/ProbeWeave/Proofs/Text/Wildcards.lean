import Mathlib.Logic.Basic
import ProbeWeave.Text.Glob

/-! # Wildcard patterns without brackets

A pattern without brackets stands for itself, whatever runs it holds, and a pattern without wildcards
stands for nothing else.
-/

namespace ProbeWeave.Text

namespace Glob

/-- What a character that opens no bracket stands for. -/
def pieceOf (c : Char) : Piece :=
  if c = '*' then .run else if c = '?' then .one else .exactly c

theorem piecesWithin_eq_map {n : Nat} {cs : List Char} (enough : cs.length ≤ n) (plain : '[' ∉ cs) :
    piecesWithin n cs = cs.map pieceOf := by
  induction cs generalizing n with
  | nil => cases n <;> rfl
  | cons c rest ih =>
    obtain ⟨n, rfl⟩ : ∃ m, n = m + 1 := ⟨n - 1, by simp at enough; omega⟩
    obtain ⟨first, later⟩ := not_or.mp (List.mem_cons.not.mp plain)
    have rest := ih (n := n) (by simpa using enough) later
    rw [List.map_cons, ← rest]
    by_cases run : c = '*'
    · subst run
      rfl
    · by_cases one : c = '?'
      · subst one
        rfl
      · rw [piecesWithin.eq_6]
        · simp [pieceOf, run, one]
        · exact fun eq => run eq
        · exact fun eq => one eq
        · exact fun eq => first eq.symm

theorem pieces_eq_map {pattern : String} (plain : '[' ∉ pattern.toList) :
    pieces pattern = pattern.toList.map pieceOf :=
  piecesWithin_eq_map (Nat.le_of_eq String.length_toList) plain

/-- Every character stands for itself. -/
theorem standsFor_self (cs : List Char) : standsFor (cs.map pieceOf) cs = true := by
  induction cs with
  | nil => rfl
  | cons c rest ih =>
    have itself : rest ∈ tails rest := by cases rest <;> simp [tails]
    rw [List.map_cons, pieceOf]
    split
    · rw [standsFor, List.any_eq_true]
      exact ⟨rest, by simp [tails, itself], ih⟩
    · split <;> simp [standsFor, Piece.accepts, ih]

/-- Characters that are no wildcards stand for nothing but themselves. -/
theorem standsFor_exactly {cs text : List Char} :
    standsFor (cs.map .exactly) text = true ↔ text = cs := by
  induction cs generalizing text with
  | nil => simp [standsFor]
  | cons c rest ih =>
    cases text with
    | nil => simp [standsFor]
    | cons d text => simp [standsFor, Piece.accepts, ih]

end Glob

/-- A pattern without brackets stands for itself. -/
theorem globMatches_self {pattern : String} (plain : '[' ∉ pattern.toList) :
    globMatches pattern pattern = true := by
  rw [globMatches_eq, Glob.pieces_eq_map plain]
  exact Glob.standsFor_self _

/-- Whether a pattern holds no wildcard. -/
def IsLiteral (pattern : String) : Prop :=
  ∀ c ∈ pattern.toList, c ≠ '*' ∧ c ≠ '?' ∧ c ≠ '['

instance (pattern : String) : Decidable (IsLiteral pattern) :=
  List.decidableBAll (fun c => c ≠ '*' ∧ c ≠ '?' ∧ c ≠ '[') pattern.toList

/-- A pattern without wildcards stands for nothing but itself. -/
theorem globMatches_literal {pattern text : String} (literal : IsLiteral pattern) :
    globMatches pattern text = true ↔ text = pattern := by
  have plain : '[' ∉ pattern.toList := fun member => (literal _ member).2.2 rfl
  have exact_ : pattern.toList.map Glob.pieceOf = pattern.toList.map .exactly := by
    refine List.map_congr_left fun c member => ?_
    obtain ⟨run, one, -⟩ := literal c member
    rw [Glob.pieceOf, if_neg run, if_neg one]
  rw [globMatches_eq, Glob.pieces_eq_map plain, exact_, Glob.standsFor_exactly, String.toList_inj]

end ProbeWeave.Text
