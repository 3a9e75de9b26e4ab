import ProbeWeave.Syntax.Grammar.Pattern

/-!
# The grammar of statements

Simple statements share a line; compound statements hold blocks. A block is either the rest of
its line or the indented lines below, and a missing block is an indentation fault.

`parseModule` reads a whole source file. It says only whether a text is a module and which: what
a later stage would complain about, such as a `return` outside of a function, is accepted.
-/

namespace ProbeWeave.Syntax

open Reading

namespace StatementRules

variable (inner : Inner)

/-- Gives a statement the lines from a first one to the last word read. -/
def spanning (first : Nat) (statement : Lines → Stmt) : Reading Stmt := do
  return statement ⟨first, ← lastLine⟩

/-! ### Simple statements -/

/-- Names joined by points. -/
def dottedName : Nat → Reading String
  | 0 => fail
  | n + 1 => do
    let id ← name
    if ← takeOperator "." then return id ++ "." ++ (← dottedName n) else return id

/-- The name something imported is bound to, if one is given. -/
def boundAs : Reading (Option String) := do
  if ← takeKeyword "as" then some <$> name else return none

/-- The points in front of the module of a relative import. -/
def importLevel : Nat → Reading Nat
  | 0 => return 0
  | n + 1 => do
    if ← takeOperator "." then return 1 + (← importLevel n)
    else if ← takeOperator "..." then return 3 + (← importLevel n)
    else return 0

/-- A name imported from a module. -/
def importedName : Reading Alias := do
  let id ← name
  return ⟨id, ← boundAs⟩

/-- Imports of modules. -/
def importModules : Reading (Lines → Stmt) := do
  expectKeyword "import"
  let entry : Reading Alias := do
    let id ← dottedName inner.bound
    return ⟨id, ← boundAs⟩
  let (names, trailing) ← commaSeparated (fun _ => true) entry inner.bound
  if trailing then fail
  return (.imports · names)

/-- Imports of names from a module. -/
def importNames : Reading (Lines → Stmt) := do
  expectKeyword "from"
  let level ← importLevel inner.bound
  let module ←
    if level != 0 && (← seesKeyword "import") then pure none
    else some <$> dottedName inner.bound
  expectKeyword "import"
  if ← takeOperator "*" then return (.importsFrom · module [⟨"*", none⟩] level)
  else if ← takeOperator "(" then
    let (names, _) ← commaSeparated (· != .operator ")") importedName inner.bound
    expectOperator ")"
    return (.importsFrom · module names level)
  else
    let (names, _) ← commaSeparated (fun _ => true) importedName inner.bound
    return (.importsFrom · module names level)

/-- The operator of an augmented assignment. -/
def augmentation : Token → Option BinaryOp
  | .operator symbol =>
    [("+=", BinaryOp.add), ("-=", .subtract), ("*=", .multiply), ("@=", .matrixMultiply),
      ("/=", .divide), ("%=", .modulo), ("&=", .bitAnd), ("|=", .bitOr), ("^=", .bitXor),
      ("<<=", .shiftLeft), (">>=", .shiftRight), ("**=", .power),
      ("//=", .floorDivide)].lookup symbol
  | _ => none

/-- The targets and the value of an assignment behind its first expression. -/
def assignment (targets : List Expr) (last : Expr) : Nat → Reading (Lines → Stmt)
  | 0 => fail
  | n + 1 => do
    if ← seesOperator "=" then
      let target ← unwrap (last.toTarget? .store true)
      skip
      assignment (targets ++ [target]) (← inner.yieldOrStarExpressions) n
    else return (.assign · targets last)

/-- An expression or an assignment of any kind. -/
def expressionStatement : Reading (Lines → Stmt) := do
  let opening ← peek
  let first ← inner.yieldOrStarExpressions
  let next ← peek
  if next == .operator ":" then
    let target ← unwrap (first.toSingleTarget? .store)
    skip
    let simple :=
      match target, opening with
      | .name .., .name _ => true
      | _, _ => false
    let annotation ← inner.expression
    let value ← if ← takeOperator "=" then some <$> inner.yieldOrStarExpressions else pure none
    return (.annotated · target annotation value simple)
  else
    match augmentation next with
    | some op =>
      let target ← unwrap (first.toSingleTarget? .store)
      skip
      let value ← inner.yieldOrStarExpressions
      return (.augmented · target op value)
    | none =>
      if next == .operator "=" then assignment inner [] first inner.bound
      else return (.expression · first)

/-- The targets of a `del` statement. -/
def deleted : Reading (List Expr) := do
  let item : Reading Expr := do
    let e ← inner.bitOr
    unwrap (e.toTarget? .delete false)
  return (← commaSeparated Inner.startsExpression item inner.bound).1

/-- Names parted by commas. -/
def names : Reading (List String) := do
  return (← commaSeparated (fun _ => true) name inner.bound).1

/-- A statement that holds no block, its lines left aside. -/
def simpleContent : Reading (Lines → Stmt) := do
  match ← peek with
  | .keyword "return" =>
    skip
    let value ←
      if Inner.startsStarExpression (← peek) then some <$> inner.starExpressions else pure none
    return (.returned · value)
  | .keyword "import" => importModules inner
  | .keyword "from" => importNames inner
  | .keyword "raise" =>
    skip
    if Inner.startsExpression (← peek) then
      let exception ← inner.expression
      let cause ← if ← takeKeyword "from" then some <$> inner.expression else pure none
      return (.raise · (some exception) cause)
    else return (.raise · none none)
  | .keyword "pass" =>
    skip
    return .pass
  | .keyword "break" =>
    skip
    return .breakLoop
  | .keyword "continue" =>
    skip
    return .continueLoop
  | .keyword "del" =>
    skip
    let targets ← deleted inner
    return (.delete · targets)
  | .keyword "assert" =>
    skip
    let test ← inner.expression
    let message ← if ← takeOperator "," then some <$> inner.expression else pure none
    return (.assert · test message)
  | .keyword "global" =>
    skip
    let ids ← names inner
    return (.globals · ids)
  | .keyword "nonlocal" =>
    skip
    let ids ← names inner
    return (.nonlocals · ids)
  | _ => expressionStatement inner

/-- A statement that holds no block. -/
def simple : Reading Stmt := do
  let first := (← here).line
  spanning first (← simpleContent inner)

/-- The simple statements of a line, up to its end, which is passed. -/
def simpleLine : Nat → Reading (List Stmt)
  | 0 => fail
  | n + 1 => do
    let statement ← simple inner
    if ← takeOperator ";" then
      if ← take .newline then return [statement]
      return statement :: (← simpleLine n)
    expect .newline
    return [statement]

/-! ### Compound statements -/

variable (statement : Reading (List Stmt))

/-- The statements of an indented block, up to its end, which is passed. -/
def indented : Nat → Reading (List Stmt)
  | 0 => fail
  | n + 1 => do
    let first ← statement
    if ← take .dedent then return first
    return first ++ (← indented n)

/-- A block behind its colon. -/
def block : Reading (List Stmt) := do
  expectOperator ":"
  if ← take .newline then
    if !(← take .indent) then failWith .indentation
    indented statement inner.bound
  else simpleLine inner inner.bound

/-- The block behind a keyword, if the keyword comes next. -/
def optionalBlock (word : String) : Reading (List Stmt) := do
  if ← takeKeyword word then block inner statement else return []

/-- A branch behind its keyword. -/
def branch (first : Nat) : Nat → Reading Stmt
  | 0 => fail
  | n + 1 => do
    let test ← inner.namedExpression
    let body ← block inner statement
    let line := (← here).line
    if ← takeKeyword "elif" then
      let otherwise ← branch line n
      spanning first (.branch · test body [otherwise])
    else
      let otherwise ← optionalBlock inner statement "else"
      spanning first (.branch · test body otherwise)

/-- A loop over the items of a value, behind its keyword. -/
def forLoop (first : Nat) (isAsync : Bool) : Reading Stmt := do
  let target ← inner.loopTarget
  expectKeyword "in"
  let source ← inner.starExpressions
  let body ← block inner statement
  let otherwise ← optionalBlock inner statement "else"
  spanning first (.forLoop · isAsync target source body otherwise)

/-- One context manager. -/
def withItem : Reading WithItem := do
  let context ← inner.expression
  if ← takeKeyword "as" then
    let e ← if ← takeOperator "*" then .starred <$> inner.bitOr else inner.bitOr
    return ⟨context, some (← unwrap (e.toTarget? .store true))⟩
  else return ⟨context, none⟩

/-- Context managers in parentheses, up to the colon, which is not passed. -/
def parenthesizedItems : Reading (List WithItem) := do
  expectOperator "("
  let (items, _) ← commaSeparated (· != .operator ")") (withItem inner) inner.bound
  expectOperator ")"
  if !(← seesOperator ":") then fail
  return items

/-- A `with` statement behind its keyword. -/
def withBlock (first : Nat) (isAsync : Bool) : Reading Stmt := do
  let plain : Reading (List WithItem) := do
    let (items, trailing) ← commaSeparated (fun _ => true) (withItem inner) inner.bound
    if trailing then fail
    return items
  let items ← if ← seesOperator "(" then orElse (parenthesizedItems inner) plain else plain
  let body ← block inner statement
  spanning first (.withBlock · isAsync items body)

/-- An `except` clause, and whether it is one of a group. -/
def handler : Reading (Option (Bool × Handler)) := do
  if !(← takeKeyword "except") then return none
  let isGroup ← takeOperator "*"
  if !isGroup && (← seesOperator ":") then
    return some (false, .mk none none (← block inner statement))
  let type ← inner.expression
  let id ← boundAs
  return some (isGroup, .mk (some type) id (← block inner statement))

/-- A `try` statement behind its keyword. Its clauses are all of groups or none is. -/
def tryBlock (first : Nat) : Reading Stmt := do
  let body ← block inner statement
  let handlers ← collect (handler inner statement) inner.bound
  let isGroup := handlers.any (·.1)
  if isGroup && handlers.any (!·.1) then fail
  let otherwise ← if handlers.isEmpty then pure [] else optionalBlock inner statement "else"
  let final ← optionalBlock inner statement "finally"
  if handlers.isEmpty && final.isEmpty then fail
  spanning first (.tryBlock · isGroup body (handlers.map (·.2)) otherwise final)

/-- A function definition from `def` on. -/
def functionDef (first : Nat) (isAsync : Bool) (decorators : List Decorator) : Reading Stmt := do
  expectKeyword "def"
  let id ← name
  expectOperator "("
  let parameters ← inner.parameters true ")"
  expectOperator ")"
  let returns ← if ← takeOperator "->" then some <$> inner.expression else pure none
  let body ← block inner statement
  spanning first (.functionDef · isAsync id parameters body decorators returns)

/-- A class definition from `class` on. -/
def classDef (first : Nat) (decorators : List Decorator) : Reading Stmt := do
  expectKeyword "class"
  let id ← name
  let read ← if ← takeOperator "(" then inner.arguments {} inner.bound else pure {}
  let body ← block inner statement
  spanning first (.classDef · id read.arguments read.keywords body decorators)

/--
The line an expression starts on, given its tokens and the line they stand behind. Parentheses
around the whole expression do not belong to it, except for the innermost ones of a tuple or a
generator.
-/
def startLine (line : Nat) (e : Expr) : Nat → List Lexeme → Nat
  | 0, _ => line
  | n + 1, lexemes =>
    let line := lexemes.head?.elim line (·.start.line)
    match lexemes with
    | ⟨.operator "(", _, _⟩ :: content =>
      let inside := content.dropLast
      let keepsOne :=
        match e with
        | .tuple _ | .generator _ _ => !enclosed inside
        | _ => false
      if enclosed lexemes && !keepsOne then startLine line e n inside else line
    | _ => line
where
  /-- Whether the first token is a parenthesis that the last one closes. -/
  enclosed (lexemes : List Lexeme) : Bool :=
    lexemes.head?.any (·.token == .operator "(") && closes 0 lexemes
  /-- Whether the brackets are balanced at the end and nowhere before. -/
  closes (depth : Nat) : List Lexeme → Bool
    | [] => false
    | [lexeme] => depth == 1 && lexeme.token == .operator ")"
    | lexeme :: rest =>
      match lexeme.token with
      | .operator symbol =>
        if ["(", "[", "\x7b"].contains symbol then closes (depth + 1) rest
        else if [")", "]", "\x7d"].contains symbol then
          if depth ≤ 1 then false else closes (depth - 1) rest
        else closes depth rest
      | _ => closes depth rest

/-- A decorator, if one follows. -/
def decorator : Reading (Option Decorator) := do
  if !(← takeOperator "@") then return none
  let line := (← here).line
  let before := (← cursor).rest
  let e ← inner.namedExpression
  let after := (← cursor).rest
  expect .newline
  let lexemes := before.take (before.length - after.length)
  return some ⟨startLine line e (lexemes.length + 1) lexemes, e⟩

/-- A definition behind its decorators. -/
def definition (decorators : List Decorator) : Reading Stmt := do
  let first := (← here).line
  match ← peek with
  | .keyword "class" => classDef inner statement first decorators
  | .keyword "async" =>
    skip
    functionDef inner statement first true decorators
  | _ => functionDef inner statement first false decorators

/-- The subject of a `match` statement and the end of its line. -/
def matchHead : Reading Expr := do
  skip
  let first ← inner.starNamedExpression
  let subject ←
    if ← takeOperator "," then
      if ← seesOperator ":" then pure (.tuple [first])
      else
        let (rest, _) ← commaSeparated (· != .operator ":") inner.starNamedExpression inner.bound
        pure (.tuple (first :: rest))
    else if first.isStarred then fail
    else pure first
  expectOperator ":"
  expect .newline
  return subject

/-- A `case` block, if one follows. -/
def caseBlock : Reading (Option Case) := do
  if !(← take (.name "case")) then return none
  let pattern ← casePattern inner
  let guard ← if ← takeKeyword "if" then some <$> inner.namedExpression else pure none
  return some (.mk pattern guard (← block inner statement))

/-- A `match` statement behind its first line. -/
def matchBlock (first : Nat) (subject : Expr) : Reading Stmt := do
  if !(← take .indent) then failWith .indentation
  let cases ← collect (caseBlock inner statement) inner.bound
  if cases.isEmpty then fail
  expect .dedent
  spanning first (.matchBlock · subject cases)

/-- The statements of a line, or one compound statement. -/
def whole : Reading (List Stmt) := do
  let first := (← here).line
  match ← peek with
  | .keyword "if" =>
    skip
    return [← branch inner statement first inner.bound]
  | .keyword "for" =>
    skip
    return [← forLoop inner statement first false]
  | .keyword "while" =>
    skip
    let test ← inner.namedExpression
    let body ← block inner statement
    let otherwise ← optionalBlock inner statement "else"
    return [← spanning first (.whileLoop · test body otherwise)]
  | .keyword "with" =>
    skip
    return [← withBlock inner statement first false]
  | .keyword "try" =>
    skip
    return [← tryBlock inner statement first]
  | .keyword "def" | .keyword "class" => return [← definition inner statement []]
  | .operator "@" =>
    let decorators ← collect (decorator inner) inner.bound
    return [← definition inner statement decorators]
  | .keyword "async" =>
    match ← peekSecond with
    | .keyword "for" =>
      skip
      skip
      return [← forLoop inner statement first true]
    | .keyword "with" =>
      skip
      skip
      return [← withBlock inner statement first true]
    | _ => return [← definition inner statement []]
  | .name "match" =>
    match ← attempt (matchHead inner) with
    | some subject => return [← matchBlock inner statement first subject]
    | none => simpleLine inner inner.bound
  | _ => simpleLine inner inner.bound

end StatementRules

/-- A statement with a bound on the depth of nesting. -/
def statementWithin (inner : Inner) : Nat → Reading (List Stmt)
  | 0 => fail
  | n + 1 => StatementRules.whole inner (later fun _ => statementWithin inner n)

/-- The statements up to the end of the text. -/
def statements (inner : Inner) : Nat → Reading (List Stmt)
  | 0 => fail
  | n + 1 => do
    if (← peek) == .finish then return []
    let first ← statementWithin inner inner.bound
    return first ++ (← statements inner n)

/-- The statements of a module, or why a text is none. -/
def parseModule (source : String) : Except Fault (List Stmt) :=
  if source.toList.contains '\x00' then .error .zeroCharacter
  else
    let bound := source.length + 16
    match (statements (.ofBound bound) bound).run ⟨lexemes source, 0⟩ with
    | .ok (body, _) => .ok body
    | .error failure => .error failure.breach.fault

/-- The expression that a text is, or why it is none. -/
def parseExpression (source : String) : Except Fault Expr :=
  if source.toList.contains '\x00' then .error .zeroCharacter
  else
    let bound := source.length + 16
    let inner := Inner.ofBound bound
    let rule : Reading Expr := do
      let (items, trailing) ← commaSeparated Inner.startsExpression inner.expression inner.bound
      let _ ← collect (do if ← take .newline then return some () else return none) bound
      expect .finish
      match items, trailing with
      | [item], false => return item
      | items, _ => return .tuple items
    match rule.run ⟨lexemesAt ⟨1, 0⟩ false source.toList, 0⟩ with
    | .ok (e, _) => .ok e
    | .error failure => .error failure.breach.fault

end ProbeWeave.Syntax
