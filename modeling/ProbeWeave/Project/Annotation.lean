import ProbeWeave.Syntax.Call
import ProbeWeave.Syntax.Grammar.Statement
import ProbeWeave.Text.Quoted

/-!
# Classes named by annotations

An annotation can name the class of a value: directly, in a text, as `Optional[C]` or as one side
of `C | D`. Other annotations name none.
-/

namespace ProbeWeave.Project

open Syntax

/-- Why a project cannot be analysed although all its modules were read. -/
inductive Fault where
  /-- A module or an annotation holds the character with code zero. -/
  | zeroCharacter
  /-- The text of an annotation holds surrogates, from one place to another. -/
  | surrogates (value : Nat) (first : Nat) (last : Nat)
  /-- To find the bases of a class its own bases have to be known. -/
  | endlessBases
  deriving DecidableEq, Repr

/-- What a fault is reported as. -/
def Fault.message : Fault → String
  | zeroCharacter => "source code string cannot contain null bytes"
  | surrogates value first last =>
    "'utf-8' codec can't encode " ++
      (if first == last then
        "character '\\u" ++ String.ofList (Text.hexFixed 4 value) ++ "' in position " ++
          toString first
      else "characters in position " ++ toString first ++ "-" ++ toString last) ++
      ": surrogates not allowed"
  | endlessBases => "the bases of a class depend on themselves"

/-- Whether a code point is a surrogate. -/
def isSurrogate (c : Nat) : Bool :=
  0xd800 ≤ c && c < 0xe000

/-- The fault of a text with surrogates. -/
def surrogateFault? (points : List Nat) : Option Fault :=
  match points.dropWhile fun c => !isSurrogate c with
  | [] => none
  | c :: rest =>
    let first := (points.takeWhile fun c => !isSurrogate c).length
    some (.surrogates c first (first + (rest.takeWhile isSurrogate).length))

/-- The expression in a text; none if the text is no expression. -/
def textExpression (points : List Nat) : Except Fault (Option Expr) :=
  match surrogateFault? points with
  | some fault => .error fault
  | none =>
    match parseExpression (String.ofList (points.map Char.ofNat)) with
    | .ok e => .ok (some e)
    | .error .zeroCharacter => .error .zeroCharacter
    | .error _ => .ok none

/-- Whether a generic annotation stands for its argument or nothing. -/
def isOptional (e : Expr) : Bool :=
  e.dottedName? == some "Optional" || e.dottedName? == some "typing.Optional"

/-- The expressions in an annotation that may name a class, with a bound on texts in texts. -/
def candidatesWithin : Nat → Expr → Except Fault (List Expr)
  | _, .name id use => .ok [.name id use]
  | _, .member value id => .ok [.member value id]
  | bound, .subscript value index =>
    if isOptional value then candidatesWithin bound index else .ok []
  | bound, .binary left .bitOr right => do
    return (← candidatesWithin bound left) ++ (← candidatesWithin bound right)
  | bound + 1, .constant (.text points _) => do
    match ← textExpression points with
    | some e => candidatesWithin bound e
    | none => return []
  | _, _ => .ok []
termination_by bound e => (bound, sizeOf e)

/-- The largest number of texts inside of texts: each is shorter than the one around it. -/
def textBound : Expr → Nat
  | .constant (.text points _) => points.length + 1
  | .subscript _ index => textBound index
  | .binary left _ right => max (textBound left) (textBound right)
  | _ => 0

/-- The expressions in an annotation that may name a class. -/
def candidates ( annotation : Expr) : Except Fault (List Expr) :=
  let bound := textBound annotation
  candidatesWithin bound annotation

/-- The first expression in an annotation that may name a class. -/
def candidate? ( annotation : Option Expr) : Except Fault (Option Expr) :=
  match annotation with
  | some e => (candidates e).map List.head?
  | none => .ok none

end ProbeWeave.Project
