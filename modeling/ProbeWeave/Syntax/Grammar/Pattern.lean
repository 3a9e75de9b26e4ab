import ProbeWeave.Syntax.Grammar.Expression

/-!
# The grammar of patterns

The patterns of `case` blocks. As with expressions, the rules refer to the patterns inside them
through a rule they are given, and `patternWithin` closes the circle with a bound on the depth.
-/

namespace ProbeWeave.Syntax

open Reading

namespace PatternRules

variable (inner : Inner)

/-- A name that a pattern binds. The underscore binds nothing, so it is no such name. -/
def captureName : Reading String := do
  let id ← name
  let next ← peek
  if id == "_" || next == .operator "." || next == .operator "(" || next == .operator "=" then
    fail
  return id

/-- The members behind a name. -/
def memberChain : Nat → Expr → Reading Expr
  | 0, e => return e
  | n + 1, e => do
    if ← takeOperator "." then memberChain n (.member e (← name)) else return e

/-- A number with or without a sign in front. -/
def signedNumber : Reading (Expr × Constant) := do
  let negative ← takeOperator "-"
  match ← peek with
  | .number value =>
    skip
    let e := Expr.constant value
    return (if negative then .unary .minus e else e, value)
  | _ => fail

/-- Whether a number is imaginary. -/
def isImaginary : Constant → Bool
  | .imaginary _ => true
  | _ => false

/-- A number, or the sum of a real number and an imaginary one. -/
def numberLiteral : Reading Expr := do
  let (real, value) ← signedNumber
  let op : Option BinaryOp :=
    match ← peek with
    | .operator "+" => some .add
    | .operator "-" => some .subtract
    | _ => none
  match op with
  | none => return real
  | some op =>
    skip
    match ← peek with
    | .number other =>
      if isImaginary value || !isImaginary other then fail
      skip
      return .binary real op (.constant other)
    | _ => fail

/-- A constant that a pattern compares with. -/
def literal : Reading (Option Expr) := do
  match ← peek with
  | .number _ | .operator "-" => return some (← numberLiteral)
  | .string _ => return some (← inner.strings)
  | _ => return none

/-- One of the constants that are written as keywords. -/
def singleton : Reading (Option Constant) := do
  let value : Option Constant :=
    match ← peek with
    | .keyword "None" => some .none
    | .keyword "True" => some .true
    | .keyword "False" => some .false
    | _ => none
  if value.isSome then skip
  return value

variable (pattern : Reading Pattern)

/-- A pattern of a sequence, which may be starred. -/
def sequenceEntry : Reading Pattern := do
  if ← takeOperator "*" then
    if ← take (.name "_") then return .star none
    return .star (some (← captureName))
  pattern

/-- The patterns of a sequence up to a closing operator, which is passed. -/
def sequenceRest (close : String) : Reading (List Pattern × Bool) := do
  if ← takeOperator close then return ([], false)
  let result ← commaSeparated (· != .operator close) (sequenceEntry pattern) inner.bound
  expectOperator close
  return result

/-- An entry of a mapping pattern: a key with its pattern. -/
def mappingEntry : Reading (Expr × Pattern) := do
  let key ←
    match ← literal inner with
    | some key => pure key
    | none =>
      match ← singleton with
      | some value => pure (.constant value)
      | none =>
        let id ← name
        if !(← seesOperator ".") then fail
        memberChain inner.bound (.name id .load)
  expectOperator ":"
  return (key, ← pattern)

/-- The entries of a mapping pattern up to the closing brace, which is passed. -/
def mapping (read : List (Expr × Pattern)) : Nat → Reading Pattern
  | 0 => fail
  | n + 1 => do
    if ← takeOperator "\x7d" then
      return .mapping (read.map (·.1)) (read.map (·.2)) none
    else if ← takeOperator "**" then
      let rest ← captureName
      let _ ← takeOperator ","
      expectOperator "\x7d"
      return .mapping (read.map (·.1)) (read.map (·.2)) (some rest)
    else
      let read := read ++ [← mappingEntry inner pattern]
      if ← takeOperator "," then mapping read n
      else
        expectOperator "\x7d"
        return .mapping (read.map (·.1)) (read.map (·.2)) none

/-- The arguments of a class pattern up to the closing bracket, which is passed. -/
def classArguments (cls : Expr) (positions : List Pattern) (keywords : List (String × Pattern)) :
    Nat → Reading Pattern
  | 0 => fail
  | n + 1 => do
    if ← takeOperator ")" then
      return .instanceOf cls positions (keywords.map (·.1)) (keywords.map (·.2))
    else
      let (positions, keywords) ←
        match ← peek, ← peekSecond with
        | .name id, .operator "=" => do
          skip
          skip
          pure (positions, keywords ++ [(id, ← pattern)])
        | _, _ => do
          if !keywords.isEmpty then fail
          pure (positions ++ [← pattern], keywords)
      if ← takeOperator "," then classArguments cls positions keywords n
      else
        expectOperator ")"
        return .instanceOf cls positions (keywords.map (·.1)) (keywords.map (·.2))

/-- A pattern that begins with a name. -/
def named (id : String) : Reading Pattern := do
  if id == "_" then
    skip
    return .bind none none
  match ← peekSecond with
  | .operator "." | .operator "(" =>
    skip
    let e ← memberChain inner.bound (.name id .load)
    if ← takeOperator "(" then classArguments pattern e [] [] inner.bound
    else if ← seesOperator "=" then fail
    else return .value e
  | _ => return .bind none (some (← captureName))

/-- A pattern in parentheses, or a sequence. -/
def grouped : Reading Pattern := do
  let (patterns, trailing) ← sequenceRest inner pattern ")"
  match patterns, trailing with
  | [.star _], false => fail
  | [p], false => return p
  | patterns, _ => return .sequence patterns

/-- A pattern without alternatives. -/
def closed : Reading Pattern := do
  match ← literal inner with
  | some e => return .value e
  | none =>
    match ← singleton with
    | some value => return .singleton value
    | none =>
      match ← peek with
      | .name id => named inner pattern id
      | .operator "(" =>
        skip
        grouped inner pattern
      | .operator "[" =>
        skip
        let (patterns, _) ← sequenceRest inner pattern "]"
        return .sequence patterns
      | .operator "\x7b" =>
        skip
        mapping inner pattern [] inner.bound
      | _ => fail

/-- Alternatives, which a name may be bound to. -/
def whole : Reading Pattern := do
  let first ← closed inner pattern
  let rest ← collect
    (do if ← takeOperator "|" then some <$> closed inner pattern else return none) inner.bound
  let p := if rest.isEmpty then first else .alternatives (first :: rest)
  if ← takeKeyword "as" then return .bind (some p) (some (← captureName))
  else return p

end PatternRules

/-- A pattern with a bound on the depth of nesting. -/
def patternWithin (inner : Inner) : Nat → Reading Pattern
  | 0 => fail
  | n + 1 => PatternRules.whole inner (later fun _ => patternWithin inner n)

/-- A pattern. -/
def pattern (inner : Inner) : Reading Pattern :=
  later fun _ => patternWithin inner inner.bound

/-- The pattern of a `case` block: a pattern, or a sequence without brackets. -/
def casePattern (inner : Inner) : Reading Pattern := do
  let ends (token : Token) : Bool := token == .operator ":" || token == .keyword "if"
  let (patterns, trailing) ← commaSeparated (!ends ·)
    (PatternRules.sequenceEntry (pattern inner)) inner.bound
  match patterns, trailing with
  | [.star _], false => fail
  | [p], false => return p
  | patterns, _ => return .sequence patterns

end ProbeWeave.Syntax
