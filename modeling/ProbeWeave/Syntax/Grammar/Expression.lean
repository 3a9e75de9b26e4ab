import ProbeWeave.Syntax.Grammar.Cursor
import ProbeWeave.Syntax.Literal
import ProbeWeave.Syntax.Tree

/-!
# The grammar of expressions

One rule per level of binding strength. The rules refer to each other through `Inner`, which
holds the rules as they are one level of nesting further in; `expressionWithin` closes the circle
with a bound on the depth. Every way around it consumes a token, or a character of a formatted
text, so the length of the source is a bound that no text exceeds.
-/

namespace ProbeWeave.Syntax

open Reading

/-! ### What can be assigned to

An expression is read before it is known to be a target. `toTarget?` turns it into one: names,
members and subscripts, and lists and tuples of targets of which some are starred. Names of a
target are bindings instead of reads. -/

namespace Expr

/-- Whether an expression is starred. -/
def isStarred : Expr → Bool
  | starred _ => true
  | _ => false

/-- A target that stands alone: a name, a member or a subscript. -/
def toSingleTarget? (use : NameUse) : Expr → Option Expr
  | name id _ => some (name id use)
  | member value id => some (member value id)
  | subscript value index => some (subscript value index)
  | _ => none

mutual

/-- The target that an expression is the text of; `starring` says whether parts may be starred. -/
def toTarget? (use : NameUse) (starring : Bool) : Expr → Option Expr
  | starred value =>
    if starring && !value.isStarred then (toTarget? use starring value).map starred else none
  | list elements => (toTargets? use starring elements).map list
  | tuple elements => (toTargets? use starring elements).map tuple
  | e => e.toSingleTarget? use

/-- The targets that expressions are the text of. -/
def toTargets? (use : NameUse) (starring : Bool) : List Expr → Option (List Expr)
  | [] => some []
  | e :: es => do
    let target ← toTarget? use starring e
    let targets ← toTargets? use starring es
    some (target :: targets)

end

end Expr

/-! ### Expressions -/

/-- The rules one level of nesting further in, and a bound on the length of lists. -/
structure Inner where
  bound : Nat
  /-- An expression without a star, a `yield` or a binding of its own. -/
  expression : Reading Expr
  /-- An operand of a sign or of the right side of a power. -/
  factor : Reading Expr
  /-- The expression of a replacement field, given as text. -/
  field : Position → List Char → Except Failure Expr

namespace Inner

variable (inner : Inner)

/-- Whether an expression may begin with a token. -/
def startsExpression : Token → Bool
  | .name _ | .number _ | .string _ => true
  | .keyword word => ["None", "True", "False", "not", "lambda", "await"].contains word
  | .operator symbol => ["(", "[", "\x7b", "-", "+", "~", "..."].contains symbol
  | _ => false

/-- Whether an expression, starred or not, may begin with a token. -/
def startsStarExpression (token : Token) : Bool :=
  startsExpression token || token == .operator "*"

/-- Whether a binding of a name follows that no brackets enclose. -/
def seesBinding : Reading Bool := do
  match ← peek, ← peekSecond with
  | .name _, .operator ":=" => return true
  | _, _ => return false

/-- An expression that may be bound to a name: `name := value`. -/
def namedExpression : Reading Expr := do
  if ← seesBinding then
    let id ← name
    skip
    return .named (.name id .store) (← inner.expression)
  else inner.expression

/-! ### Operators -/

/-- Operands joined from left to right by operators of one level. -/
def leftChain (link : Token → Option BinaryOp) (operand : Reading Expr) : Reading Expr := do
  extend inner.bound (← operand)
where
  extend : Nat → Expr → Reading Expr
    | 0, left => return left
    | n + 1, left => do
      match link (← peek) with
      | some op =>
        skip
        extend n (.binary left op (← operand))
      | none => return left

/-- The operator that a token stands for on one level. -/
def linkOf (level : List (String × BinaryOp)) : Token → Option BinaryOp
  | .operator symbol => level.lookup symbol
  | _ => none

/-! ### Comparisons and boolean operators -/

/-- The link of a comparison that comes next, which is passed. -/
def comparisonLink : Reading (Option CompareOp) := do
  match ← peek with
  | .operator symbol =>
    let op : Option CompareOp := [("==", .equal), ("!=", .notEqual), ("<", .less),
      ("<=", .lessEqual), (">", .greater), (">=", .greaterEqual)].lookup symbol
    if op.isSome then skip
    return op
  | .keyword "in" =>
    skip
    return some .member
  | .keyword "not" =>
    if (← peekSecond) == .keyword "in" then
      skip
      skip
      return some .notMember
    else return none
  | .keyword "is" =>
    skip
    if ← takeKeyword "not" then return some .notSame else return some .same
  | _ => return none

/-- A bitwise operand and everything that binds tighter. -/
def bitOr : Reading Expr :=
  inner.leftChain (linkOf [("|", .bitOr)]) <|
  inner.leftChain (linkOf [("^", .bitXor)]) <|
  inner.leftChain (linkOf [("&", .bitAnd)]) <|
  inner.leftChain (linkOf [("<<", .shiftLeft), (">>", .shiftRight)]) <|
  inner.leftChain (linkOf [("+", .add), ("-", .subtract)]) <|
  inner.leftChain (linkOf [("*", .multiply), ("/", .divide), ("//", .floorDivide),
    ("%", .modulo), ("@", .matrixMultiply)]) inner.factor

/-- A chain of comparisons. -/
def comparison : Reading Expr := do
  let left ← inner.bitOr
  let links ← collect (link inner.bitOr) inner.bound
  if links.isEmpty then return left
  else return .compare left (links.map (·.1)) (links.map (·.2))
where
  /-- A link with its right operand. -/
  link (operand : Reading Expr) : Reading (Option (CompareOp × Expr)) := do
    match ← comparisonLink with
    | some op => return some (op, ← operand)
    | none => return none

/-- A comparison behind any number of negations. -/
def inversion : Reading Expr := do
  let negations ← collect (do if ← takeKeyword "not" then return some () else return none)
    inner.bound
  let operand ← inner.comparison
  return negations.foldl (fun e _ => .unary .not e) operand

/-- Operands joined by a keyword: one operation for the whole run. -/
def booleanRun (word : String) (op : BoolOp) (operand : Reading Expr) : Reading Expr := do
  let first ← operand
  let rest ← collect (do if ← takeKeyword word then some <$> operand else return none) inner.bound
  if rest.isEmpty then return first
  else return .boolean op (first :: rest)

/-! ### Parameters -/

/-- What was read of a parameter list. -/
structure ParametersRead where
  positionalOnly : List Parameter := []
  regular : List Parameter := []
  rest : Option Parameter := none
  keywordOnly : List Parameter := []
  keywordRest : Option Parameter := none
  /-- Whether the star is passed, behind which parameters take keywords only. -/
  starred : Bool := false
  /-- Whether a parameter with a default was read in front of the star. -/
  defaulted : Bool := false
  /-- Whether the slash is passed. -/
  slashed : Bool := false

/-- A name with an annotation, where annotations are allowed. -/
def parameterName (annotated : Bool) (starAllowed : Bool) :
    Reading (String × Option Expr) := do
  let id ← name
  if !annotated then return (id, none)
  else if ← takeOperator ":" then
    if starAllowed && (← seesOperator "*") then
      skip
      return (id, some (.starred (← inner.bitOr)))
    else return (id, some (← inner.expression))
  else return (id, none)

/-- One entry of a parameter list. -/
def parameterEntry (annotated : Bool) (read : ParametersRead) : Reading ParametersRead := do
  if read.keywordRest.isSome then fail
  else if ← takeOperator "/" then
    if read.slashed || read.starred || read.regular.isEmpty then fail
    return { read with positionalOnly := read.regular, regular := [], slashed := true }
  else if ← takeOperator "**" then
    let (id, annotation) ← inner.parameterName annotated false
    return { read with keywordRest := some (.mk id annotation none) }
  else if ← takeOperator "*" then
    if read.starred then fail
    if ← seesOperator "," then
      match ← peekSecond with
      | .name _ => return { read with starred := true }
      | _ => fail
    else
      let (id, annotation) ← inner.parameterName annotated true
      return { read with starred := true, rest := some (.mk id annotation none) }
  else
    let (id, annotation) ← inner.parameterName annotated false
    let default ← if ← takeOperator "=" then some <$> inner.expression else pure none
    let parameter := Parameter.mk id annotation default
    if read.starred then
      return { read with keywordOnly := read.keywordOnly ++ [parameter] }
    else if read.defaulted && default.isNone then fail
    else
      return { read with
        regular := read.regular ++ [parameter]
        defaulted := read.defaulted || default.isSome }

/-- The parameters up to a closing operator, which is not passed. -/
def parameters (annotated : Bool) (close : String) : Reading Parameters := do
  let read ← go inner.bound {}
  return .mk read.positionalOnly read.regular read.rest read.keywordOnly read.keywordRest
where
  go : Nat → ParametersRead → Reading ParametersRead
    | 0, read => return read
    | n + 1, read => do
      if ← seesOperator close then return read
      let read ← inner.parameterEntry annotated read
      if ← takeOperator "," then go n read
      else if ← seesOperator close then return read
      else fail

/-- An expression without a condition behind it. -/
def disjunction : Reading Expr :=
  inner.booleanRun "or" .or (inner.booleanRun "and" .and inner.inversion)

/-- An expression, starred or not. -/
def starExpression : Reading Expr := do
  if ← takeOperator "*" then return .starred (← inner.bitOr)
  else inner.expression

/-- An expression, starred or bound to a name or neither. -/
def starNamedExpression : Reading Expr := do
  if ← takeOperator "*" then return .starred (← inner.bitOr)
  else inner.namedExpression

/-- Expressions parted by commas make a tuple; one alone stands for itself. -/
def starExpressions : Reading Expr := do
  let (items, trailing) ← commaSeparated startsStarExpression inner.starExpression inner.bound
  match items, trailing with
  | [item], false => return item
  | items, _ => return .tuple items

/-- A `yield` from the keyword on. -/
def yieldExpression : Reading Expr := do
  expectKeyword "yield"
  if ← takeKeyword "from" then return .yieldFrom (← inner.expression)
  else if startsStarExpression (← peek) then return .yield (some (← inner.starExpressions))
  else return .yield none

/-- A `yield` or expressions parted by commas. -/
def yieldOrStarExpressions : Reading Expr := do
  if ← seesKeyword "yield" then inner.yieldExpression else inner.starExpressions

/-- A target of a loop, which ends in front of `in`. -/
def loopTarget : Reading Expr := do
  let item : Reading Expr := do
    let e ← if ← takeOperator "*" then .starred <$> inner.bitOr else inner.bitOr
    unwrap (e.toTarget? .store true)
  let (items, trailing) ← commaSeparated startsStarExpression item inner.bound
  match items, trailing with
  | [item], false => return item
  | items, _ => return .tuple items

/-! ### Comprehensions -/

/-- Whether a comprehension follows. -/
def seesClause : Reading Bool := do
  match ← peek, ← peekSecond with
  | .keyword "for", _ => return true
  | .keyword "async", .keyword "for" => return true
  | _, _ => return false

/-- One clause of a comprehension. -/
def clause : Reading (Option Clause) := do
  if !(← seesClause) then return none
  let isAsync ← takeKeyword "async"
  expectKeyword "for"
  let target ← inner.loopTarget
  expectKeyword "in"
  let source ← inner.disjunction
  let conditions ← collect
    (do if ← takeKeyword "if" then some <$> inner.disjunction else return none) inner.bound
  return some (.mk isAsync target source conditions)

/-- The clauses of a comprehension. -/
def clauses : Reading (List Clause) :=
  collect inner.clause inner.bound

/-! ### Calls and subscripts -/

/-- What was read of the arguments of a call. -/
structure ArgumentsRead where
  arguments : List Expr := []
  keywords : List Keyword := []
  /-- Whether a mapping was unpacked, behind which no position may be starred. -/
  unpacked : Bool := false

/-- One argument of a call. -/
def argument (read : ArgumentsRead) : Reading ArgumentsRead := do
  match ← peek, ← peekSecond with
  | .operator "**", _ =>
    skip
    return { read with
      keywords := read.keywords ++ [.mk none (← inner.expression)], unpacked := true }
  | .operator "*", _ =>
    if read.unpacked then fail
    skip
    return { read with arguments := read.arguments ++ [.starred (← inner.expression)] }
  | .name id, .operator "=" =>
    skip
    skip
    return { read with keywords := read.keywords ++ [.mk (some id) (← inner.expression)] }
  | _, _ =>
    if !read.keywords.isEmpty then fail
    return { read with arguments := read.arguments ++ [← inner.namedExpression] }

/-- Arguments up to the closing bracket, which is passed. -/
def arguments (read : ArgumentsRead) : Nat → Reading ArgumentsRead
  | 0 => fail
  | n + 1 => do
    if ← takeOperator ")" then return read
    let read ← inner.argument read
    if ← takeOperator "," then arguments read n
    else
      expectOperator ")"
      return read

/--
The arguments of a call behind its opening bracket. A generator needs no brackets of its own if
it is the only argument.
-/
def callArguments : Reading ArgumentsRead := do
  if ← takeOperator ")" then return {}
  let first ← inner.argument {}
  let alone :=
    match first.arguments, first.keywords with
    | [.starred _], _ => none
    | [e], [] => some e
    | _, _ => none
  match alone, ← seesClause with
  | some element, true =>
    let clauses ← inner.clauses
    expectOperator ")"
    return { arguments := [.generator element clauses] }
  | _, _ =>
    if ← takeOperator "," then inner.arguments first inner.bound
    else
      expectOperator ")"
      return first

/-- One entry of a subscript: a slice, a starred expression or an expression. -/
def subscriptEntry : Reading Expr := do
  if ← takeOperator "*" then return .starred (← inner.expression)
  if ← seesBinding then inner.namedExpression
  else
    let lower ← if ← seesOperator ":" then pure none else some <$> inner.expression
    if ← takeOperator ":" then
      let upper ← bound
      let step ← if ← takeOperator ":" then bound else pure none
      return .slice lower upper step
    else unwrap lower
where
  /-- An optional bound of a slice. -/
  bound : Reading (Option Expr) := do
    if startsExpression (← peek) then return some (← inner.expression) else return none

/-- What stands between the brackets of a subscript, the closing one included. -/
def subscriptIndex : Reading Expr := do
  let (entries, trailing) ←
    commaSeparated (· != .operator "]") inner.subscriptEntry inner.bound
  expectOperator "]"
  match entries, trailing with
  | [.starred e], _ => return .tuple [.starred e]
  | [entry], false => return entry
  | entries, _ => return .tuple entries

/-! ### Atoms -/

/-- Whether the literals of a run are all of bytes or all of texts. -/
def sameKind (contents : List Literal.Content) : Bool :=
  let isBytes : Literal.Content → Bool
    | .bytes _ => true
    | _ => false
  contents.all isBytes || contents.all (!isBytes ·)

/-- Puts code points behind the text that a list of parts, in reverse order, begins with. -/
def pushPoints (mark : Bool) (points : List Nat) (parts : List Expr) : List Expr :=
  if points.isEmpty then parts
  else
    match parts with
    | .constant (.text before _) :: rest => .constant (.text (before ++ points) mark) :: rest
    | parts => .constant (.text points mark) :: parts

/--
Puts a piece of a formatted text behind the parts, in reverse order, in front of it; `specification`
reads the pieces of a format.
-/
def pushPiece (mark : Bool)
    (specification : List Literal.Piece → Except Failure (Option Expr)) (parts : List Expr) :
    Literal.Piece → Except Failure (List Expr)
  | .literal points => .ok (pushPoints mark points parts)
  | .field source start conversion format => do
    let value ← inner.field start source
    let format ←
      match format with
      | some pieces => specification pieces
      | none => pure none
    return .formatted value conversion format :: parts

/--
The parts of a formatted text, in reverse order, from its pieces. The number bounds how deep
format specifications nest.
-/
def joinPieces (mark : Bool) : Nat → List Literal.Piece → List Expr →
    Except Failure (List Expr)
  | 0, pieces, parts => pieces.foldlM (inner.pushPiece mark fun _ => pure none) parts
  | depth + 1, pieces, parts =>
    pieces.foldlM (inner.pushPiece mark fun pieces => do
      return some (.joined (← joinPieces mark depth pieces []).reverse)) parts

/-- The expression of literals that follow one another. -/
def joinContents (mark : Bool) (contents : List Literal.Content) : Except Failure Expr := do
  let bytes := contents.flatMap fun
    | .bytes values => values
    | _ => []
  match contents with
  | .bytes _ :: _ => return .constant (.bytes bytes)
  | _ =>
    let formatted := contents.any fun
      | .template _ => true
      | _ => false
    let pieces := contents.flatMap fun
      | .text points => [Literal.Piece.literal points]
      | .template pieces => pieces
      | .bytes _ => []
    let parts ← inner.joinPieces mark 3 pieces []
    if formatted then return .joined parts.reverse
    else
      match parts with
      | [part] => return part
      | _ => return .constant (.text [] mark)

/-- Literals that follow one another. -/
def strings : Reading Expr := do
  let position ← here
  let first ← peek
  let mark :=
    match first with
    | .string literal => Literal.hasUnicodeMark literal
    | _ => false
  let contents ← collect next inner.bound
  if !sameKind contents then error ⟨position, .invalid⟩
  match inner.joinContents mark contents with
  | .ok e => return e
  | .error _ => error ⟨position, .invalid⟩
where
  /-- The next literal. -/
  next : Reading (Option Literal.Content) := do
    match ← peek with
    | .string literal =>
      let content ← unwrap (Literal.content (← here) literal)
      skip
      return some content
    | _ => return none

/-- What follows an opening parenthesis. -/
def parenthesized : Reading Expr := do
  if ← takeOperator ")" then return .tuple []
  if ← seesKeyword "yield" then
    let e ← inner.yieldExpression
    expectOperator ")"
    return e
  let first ← inner.starNamedExpression
  if !first.isStarred && (← seesClause) then
    let clauses ← inner.clauses
    expectOperator ")"
    return .generator first clauses
  if ← takeOperator "," then
    if ← takeOperator ")" then return .tuple [first]
    let (rest, _) ← commaSeparated (· != .operator ")") inner.starNamedExpression inner.bound
    expectOperator ")"
    return .tuple (first :: rest)
  if first.isStarred then fail
  expectOperator ")"
  return first

/-- What follows an opening square bracket. -/
def bracketed : Reading Expr := do
  if ← takeOperator "]" then return .list []
  let first ← inner.starNamedExpression
  if !first.isStarred && (← seesClause) then
    let clauses ← inner.clauses
    expectOperator "]"
    return .listComprehension first clauses
  if ← takeOperator "," then
    if ← takeOperator "]" then return .list [first]
    let (rest, _) ← commaSeparated (· != .operator "]") inner.starNamedExpression inner.bound
    expectOperator "]"
    return .list (first :: rest)
  expectOperator "]"
  return .list [first]

/-- An entry of a dictionary display. -/
def dictItem : Reading DictItem := do
  if ← takeOperator "**" then return .unpacked (← inner.bitOr)
  let key ← inner.expression
  expectOperator ":"
  return .pair key (← inner.expression)

/-- The entries of a dictionary display behind the first one, up to the closing brace. -/
def dictRest (first : DictItem) : Reading Expr := do
  if ← takeOperator "," then
    if ← takeOperator "\x7d" then return .dict [first]
    let (rest, _) ← commaSeparated (· != .operator "\x7d") inner.dictItem inner.bound
    expectOperator "\x7d"
    return .dict (first :: rest)
  expectOperator "\x7d"
  return .dict [first]

/-- What follows an opening brace: a dictionary or a set. -/
def braced : Reading Expr := do
  if ← takeOperator "\x7d" then return .dict []
  if ← seesOperator "**" then
    inner.dictRest (← inner.dictItem)
  else
    let isBinding ← seesBinding
    let first ← inner.starNamedExpression
    let isKey ← if isBinding || first.isStarred then pure false else takeOperator ":"
    if isKey then
      let value ← inner.expression
      if ← seesClause then
        let clauses ← inner.clauses
        expectOperator "\x7d"
        return .dictComprehension first value clauses
      inner.dictRest (.pair first value)
    else if !first.isStarred && (← seesClause) then
      let clauses ← inner.clauses
      expectOperator "\x7d"
      return .setComprehension first clauses
    else if ← takeOperator "," then
      if ← takeOperator "\x7d" then return .set [first]
      let (rest, _) ← commaSeparated (· != .operator "\x7d") inner.starNamedExpression inner.bound
      expectOperator "\x7d"
      return .set (first :: rest)
    else
      expectOperator "\x7d"
      return .set [first]

/-- An expression without operators around it. -/
def atom : Reading Expr := do
  match ← peek with
  | .name id =>
    skip
    return .name id .load
  | .number value =>
    skip
    return .constant value
  | .string _ => inner.strings
  | .keyword "None" =>
    skip
    return .constant .none
  | .keyword "True" =>
    skip
    return .constant .true
  | .keyword "False" =>
    skip
    return .constant .false
  | .operator "..." =>
    skip
    return .constant .ellipsis
  | .operator "(" =>
    skip
    inner.parenthesized
  | .operator "[" =>
    skip
    inner.bracketed
  | .operator "\x7b" =>
    skip
    inner.braced
  | _ => fail

/-- An atom with the members, calls and subscripts behind it. -/
def primary : Reading Expr := do
  let start ← here
  trail start inner.bound (← inner.atom)
where
  trail (start : Position) : Nat → Expr → Reading Expr
    | 0, e => return e
    | n + 1, e => do
      if ← takeOperator "." then trail start n (.member e (← name))
      else if ← takeOperator "(" then
        let read ← inner.callArguments
        trail start n (.call start e read.arguments read.keywords)
      else if ← takeOperator "[" then
        trail start n (.subscript e (← inner.subscriptIndex))
      else return e

/-- A primary expression, awaited or not, raised to a power or not. -/
def power : Reading Expr := do
  let base ← if ← takeKeyword "await" then .await <$> inner.primary else inner.primary
  if ← takeOperator "**" then return .binary base .power (← inner.factor)
  else return base

/-- A power behind any number of signs. -/
def signed : Reading Expr := do
  let sign : Token → Option UnaryOp
    | .operator symbol => [("+", UnaryOp.plus), ("-", .minus), ("~", .invert)].lookup symbol
    | _ => none
  let signs ← collect
    (do
      match sign (← peek) with
      | some op =>
        skip
        return some op
      | none => return none)
    inner.bound
  let operand ← inner.power
  return signs.foldr .unary operand

/-- A function without a name. -/
def lambda : Reading Expr := do
  expectKeyword "lambda"
  let parameters ← inner.parameters false ":"
  expectOperator ":"
  return .lambda parameters (← inner.expression)

/-- An expression: a function without a name, or an operation with or without a condition. -/
def wholeExpression : Reading Expr := do
  if ← seesKeyword "lambda" then inner.lambda
  else
    let body ← inner.disjunction
    if ← takeKeyword "if" then
      let test ← inner.disjunction
      expectKeyword "else"
      return .conditional test body (← inner.expression)
    else return body

end Inner

/-! ### Closing the circle -/

/-- The rules of expressions, which rule is asked for and what it is given. -/
inductive Rule where
  | expression
  | factor

mutual

/-- A rule with a bound on the depth of nesting. -/
def readWithin (bound : Nat) : Nat → Rule → Reading Expr
  | 0, _ => fail
  | n + 1, rule =>
    let inner : Inner :=
      { bound
        expression := later fun _ => readWithin bound n .expression
        factor := later fun _ => readWithin bound n .factor
        field := fun position source => fieldWithin bound n position source }
    match rule with
    | .expression => inner.wholeExpression
    | .factor => inner.signed

/-- The expression of a replacement field: what the text means between parentheses. -/
def fieldWithin (bound : Nat) : Nat → Position → List Char → Except Failure Expr
  | 0, position, _ => .error ⟨position, .invalid⟩
  | n + 1, position, source =>
    let inner : Inner :=
      { bound
        expression := later fun _ => readWithin bound n .expression
        factor := later fun _ => readWithin bound n .factor
        field := fun position source => fieldWithin bound n position source }
    let lexemes := lexemesAt ⟨position.line, position.column - 1⟩ true ('(' :: source ++ [')'])
    match inner.starExpressions.run ⟨lexemes, position.line⟩ with
    | .ok (e, _) => .ok e
    | .error failure => .error failure

end

/-- The rules of expressions for a text with the given bound on its length. -/
def Inner.ofBound (bound : Nat) : Inner :=
  { bound
    expression := later fun _ => readWithin bound bound .expression
    factor := later fun _ => readWithin bound bound .factor
    field := fun position source => fieldWithin bound bound position source }

end ProbeWeave.Syntax
