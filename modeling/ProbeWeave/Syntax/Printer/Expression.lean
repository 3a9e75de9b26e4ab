import ProbeWeave.Number.Whole
import ProbeWeave.Syntax.Printer.Literal
import ProbeWeave.Syntax.Node

/-!
# Printing expressions

An expression is printed with as few parentheses as the strength of its operators allows. The
strength that the surroundings ask for is a number; an expression that binds weaker is put in
parentheses. Two habits print more of them than needed: each further operand of `and` or `or` is
asked for one more, and a generator keeps its own even as the only argument of a call.
-/

namespace ProbeWeave.Syntax

namespace Printer

/-! ### Binding strengths -/

def namedStrength : Nat := 1
def tupleStrength : Nat := 2
def yieldStrength : Nat := 3
def conditionalStrength : Nat := 4
def orStrength : Nat := 5
def andStrength : Nat := 6
def notStrength : Nat := 7
def compareStrength : Nat := 8
def bitOrStrength : Nat := 9
def factorStrength : Nat := 15
def awaitStrength : Nat := 17
def atomStrength : Nat := 18

/-- The strength of a binary operator. -/
def strengthOf : BinaryOp → Nat
  | .bitOr => 9
  | .bitXor => 10
  | .bitAnd => 11
  | .shiftLeft | .shiftRight => 12
  | .add | .subtract => 13
  | .multiply | .matrixMultiply | .divide | .modulo | .floorDivide => 14
  | .power => 16

/-- How a binary operator is written. -/
def symbolOf : BinaryOp → String
  | .add => "+"
  | .subtract => "-"
  | .multiply => "*"
  | .matrixMultiply => "@"
  | .divide => "/"
  | .modulo => "%"
  | .power => "**"
  | .shiftLeft => "<<"
  | .shiftRight => ">>"
  | .bitOr => "|"
  | .bitXor => "^"
  | .bitAnd => "&"
  | .floorDivide => "//"

/-- How a link of a comparison is written. -/
def compareSymbol : CompareOp → String
  | .equal => "=="
  | .notEqual => "!="
  | .less => "<"
  | .lessEqual => "<="
  | .greater => ">"
  | .greaterEqual => ">="
  | .same => "is"
  | .notSame => "is not"
  | .member => "in"
  | .notMember => "not in"

/-- How the operator in front of an operand is written, with its strength. -/
def unarySymbol : UnaryOp → String × Nat
  | .invert => ("~", factorStrength)
  | .not => ("not ", notStrength)
  | .plus => ("+", factorStrength)
  | .minus => ("-", factorStrength)

/-- Puts text in parentheses if the surroundings ask for more strength than it has. -/
def guardText (asked has : Nat) (text : String) : String :=
  if has < asked then "(" ++ text ++ ")" else text

/-- Texts with commas between them. -/
def commaList (texts : List String) : String :=
  ", ".intercalate texts

/-- Texts with commas between them; a single one is followed by a comma. -/
def tupleList (texts : List String) : String :=
  match texts with
  | [text] => text ++ ","
  | texts => commaList texts

/-- Whether a member of this expression needs a blank before its point, as whole numbers do. -/
def needsGap : Expr → Bool
  | .constant (.int _) | .constant .true | .constant .false => true
  | _ => false

/-- The text of a replacement field around the text of its expression. -/
def fieldPoints (value : String) (conversion : Option Conversion) (format : Option (List Nat)) :
    List Nat :=
  let opening := if value.startsWith "\x7b" then "\x7b " else "\x7b"
  let conversion :=
    match conversion with
    | some .str => "!s"
    | some .repr => "!r"
    | some .ascii => "!a"
    | none => ""
  let format :=
    match format with
    | some points => 0x3a :: points
    | none => []
  Text.points (opening ++ value ++ conversion) ++ format ++ [0x7d]

/-- The bare star that sets off parameters that take keywords only. -/
def starText (rest : Option String) (keywordOnly : List String) : List String :=
  match rest with
  | some text => ["*" ++ text]
  | none => if keywordOnly.isEmpty then [] else ["*"]

mutual

/--
The text of an expression where the surroundings ask for a strength. With `plain`, texts are
written without backslashes as far as possible.
-/
def exprText (plain : Bool) (asked : Nat) : Expr → String
  | .boolean op operands =>
    let strength := if op == .or then orStrength else andStrength
    guardText asked strength
      ((if op == .or then " or " else " and ").intercalate
        (exprTexts plain (strength + 1) 1 operands))
  | .named target value =>
    guardText asked namedStrength
      (exprText plain atomStrength target ++ " := " ++ exprText plain atomStrength value)
  | .binary left op right =>
    let strength := strengthOf op
    let (l, r) := if op == .power then (strength + 1, strength) else (strength, strength + 1)
    guardText asked strength
      (exprText plain l left ++ " " ++ symbolOf op ++ " " ++ exprText plain r right)
  | .unary op operand =>
    let (symbol, strength) := unarySymbol op
    guardText asked strength (symbol ++ exprText plain strength operand)
  | .lambda parameters body =>
    let parameters := parametersText plain parameters
    guardText asked conditionalStrength
      ("lambda" ++ (if parameters.isEmpty then "" else " " ++ parameters) ++ ": " ++
        exprText plain conditionalStrength body)
  | .conditional test body otherwise =>
    guardText asked conditionalStrength
      (exprText plain orStrength body ++ " if " ++ exprText plain orStrength test ++ " else " ++
        exprText plain conditionalStrength otherwise)
  | .dict items => "\x7b" ++ commaList (itemTexts plain items) ++ "\x7d"
  | .set elements =>
    if elements.isEmpty then "\x7b*()\x7d"
    else "\x7b" ++ commaList (exprTexts plain conditionalStrength 0 elements) ++ "\x7d"
  | .listComprehension element clauses =>
    "[" ++ exprText plain conditionalStrength element ++ clausesText plain clauses ++ "]"
  | .setComprehension element clauses =>
    "\x7b" ++ exprText plain conditionalStrength element ++ clausesText plain clauses ++ "\x7d"
  | .dictComprehension key value clauses =>
    "\x7b" ++ exprText plain conditionalStrength key ++ ": " ++
      exprText plain conditionalStrength value ++ clausesText plain clauses ++ "\x7d"
  | .generator element clauses =>
    "(" ++ exprText plain conditionalStrength element ++ clausesText plain clauses ++ ")"
  | .await value => guardText asked awaitStrength ("await " ++ exprText plain atomStrength value)
  | .yield value =>
    guardText asked yieldStrength
      ("yield" ++
        match value with
        | some e => " " ++ exprText plain atomStrength e
        | none => "")
  | .yieldFrom value =>
    guardText asked yieldStrength ("yield from " ++ exprText plain atomStrength value)
  | .compare left ops comparators =>
    guardText asked compareStrength
      (exprText plain bitOrStrength left ++
        String.join ((ops.zip (exprTexts plain bitOrStrength 0 comparators)).map
          fun (op, text) => " " ++ compareSymbol op ++ " " ++ text))
  | .call _ callee arguments keywords =>
    exprText plain atomStrength callee ++ "(" ++
      commaList (exprTexts plain conditionalStrength 0 arguments ++ keywordTexts plain keywords) ++
      ")"
  | .formatted value conversion format =>
    plainFormattedText
      [(fieldPoints (exprText true orStrength value) conversion
        (match format with
        | some e => some (partPoints e).1
        | none => none), false)]
  | .joined parts =>
    let pieces := piecesOf parts
    if plain then plainFormattedText pieces else formattedText pieces
  | .constant value => constantText plain value
  | .member value id =>
    exprText plain atomStrength value ++ (if needsGap value then " ." else ".") ++ id
  | .subscript value index =>
    exprText plain atomStrength value ++ "[" ++
      (match index with
      | .tuple (first :: rest) =>
        tupleList (exprText plain conditionalStrength first ::
          exprTexts plain conditionalStrength 0 rest)
      | index => exprText plain conditionalStrength index) ++ "]"
  | .starred value => "*" ++ exprText plain bitOrStrength value
  | .name id _ => id
  | .list elements => "[" ++ commaList (exprTexts plain conditionalStrength 0 elements) ++ "]"
  | .tuple elements =>
    let text := tupleList (exprTexts plain conditionalStrength 0 elements)
    if elements.isEmpty || tupleStrength < asked then "(" ++ text ++ ")" else text
  | .slice lower upper step =>
    (match lower with
    | some e => exprText plain conditionalStrength e
    | none => "") ++ ":" ++
    (match upper with
    | some e => exprText plain conditionalStrength e
    | none => "") ++
    (match step with
    | some e => ":" ++ exprText plain conditionalStrength e
    | none => "")

/-- The texts of expressions, asked for a strength that grows by a step from one to the next. -/
def exprTexts (plain : Bool) (asked step : Nat) : List Expr → List String
  | [] => []
  | e :: es => exprText plain (min asked atomStrength) e :: exprTexts plain (asked + step) step es

/-- The points of a part of a formatted text, and whether the part is literal. -/
def partPoints : Expr → List Nat × Bool
  | .formatted value conversion format =>
    (fieldPoints (exprText true orStrength value) conversion
      (match format with
      | some e => some (partPoints e).1
      | none => none), false)
  | .constant (.text points _) => (doubleBraces points, true)
  | .joined parts => ((piecesOf parts).flatMap (·.1), false)
  | _ => ([], true)

/-- The pieces of a formatted text. -/
def piecesOf : List Expr → List (List Nat × Bool)
  | [] => []
  | e :: es => partPoints e :: piecesOf es

/-- The texts of keyword arguments. -/
def keywordTexts (plain : Bool) : List Keyword → List String
  | [] => []
  | .mk id value :: rest =>
    ((match id with
      | some id => id ++ "="
      | none => "**") ++ exprText plain conditionalStrength value) :: keywordTexts plain rest

/-- The texts of the entries of a dictionary display. -/
def itemTexts (plain : Bool) : List DictItem → List String
  | [] => []
  | .pair key value :: rest =>
    (exprText plain conditionalStrength key ++ ": " ++ exprText plain conditionalStrength value) ::
      itemTexts plain rest
  | .unpacked mapping :: rest =>
    ("**" ++ exprText plain bitOrStrength mapping) :: itemTexts plain rest

/-- The text of the clauses of a comprehension. -/
def clausesText (plain : Bool) : List Clause → String
  | [] => ""
  | .mk isAsync target source conditions :: rest =>
    (if isAsync then " async for " else " for ") ++ exprText plain tupleStrength target ++ " in " ++
      exprText plain orStrength source ++
      String.join ((exprTexts plain orStrength 0 conditions).map (" if " ++ ·)) ++
      clausesText plain rest

/-- The texts of parameters, with their annotations and defaults. -/
def parameterTexts (plain : Bool) : List Parameter → List String
  | [] => []
  | .mk id annotation default :: rest =>
    (id ++
      (match annotation with
      | some e => ": " ++ exprText plain conditionalStrength e
      | none => "") ++
      (match default with
      | some e => "=" ++ exprText plain conditionalStrength e
      | none => "")) :: parameterTexts plain rest

/-- The text of a parameter list. -/
def parametersText (plain : Bool) : Parameters → String
  | .mk positionalOnly regular rest keywordOnly keywordRest =>
    let positionalOnly := parameterTexts plain positionalOnly
    let keywordOnly := parameterTexts plain keywordOnly
    let rest :=
      match rest with
      | some (.mk id annotation _) =>
        some (id ++
          match annotation with
          | some e => ": " ++ exprText plain conditionalStrength e
          | none => "")
      | none => none
    let keywordRest :=
      match keywordRest with
      | some (.mk id annotation _) =>
        ["**" ++ id ++
          match annotation with
          | some e => ": " ++ exprText plain conditionalStrength e
          | none => ""]
      | none => []
    commaList (positionalOnly ++ (if positionalOnly.isEmpty then [] else ["/"]) ++
      parameterTexts plain regular ++ starText rest keywordOnly ++ keywordOnly ++ keywordRest)

end

/-! ### What cannot be printed -/

/-- Why a tree has no text. -/
inductive Obstacle where
  /-- The expression of a replacement field needs a backslash. -/
  | backslashInField
  /-- A whole number has more digits than may be written. -/
  | longNumber
  deriving DecidableEq, Repr

/-- The wording of an obstacle. -/
def Obstacle.message : Obstacle → String
  | backslashInField => "Unable to avoid backslash in f-string expression part"
  | longNumber =>
    "Exceeds the limit (" ++ toString Number.digitLimit ++
      " digits) for integer string conversion; use sys.set_int_max_str_digits() to increase the limit"

-- Powers of numbers are those that are computed with, whatever other powers are known.
attribute [local instance (2000)] instPowNat

/-- The obstacle that one node is. -/
def obstacleAt : Node → Option Obstacle
  | .expr (.formatted value _ _) =>
    if (exprText true orStrength value).contains '\\' then some .backslashInField else none
  | .expr (.constant (.int value)) => if 10 ^ Number.digitLimit ≤ value then some .longNumber else none
  | _ => none

/-- The first obstacle at or below a node. -/
def obstacle? (node : Node) : Option Obstacle :=
  node.preorder.findSome? obstacleAt

end Printer

/-- The text of an expression. -/
def Expr.text (e : Expr) : String :=
  Printer.exprText false Printer.conditionalStrength e

/-- The text of an expression, or why it has none. -/
def Expr.text? (e : Expr) : Except Printer.Obstacle String :=
  match Printer.obstacle? (.expr e) with
  | some obstacle => .error obstacle
  | none => .ok e.text

end ProbeWeave.Syntax
