import ProbeWeave.Syntax.Printer.Expression

/-!
# Printing statements

A statement is printed as lines, each level of blocks indented by four blanks. An empty line
stands in front of a definition, unless nothing stands before it.
-/

namespace ProbeWeave.Syntax

namespace Printer

/-- The text of an expression among others. -/
def plainText (e : Expr) : String :=
  exprText false conditionalStrength e

/-- An optional expression behind some text. -/
def optionalText (lead : String) (e : Option Expr) : String :=
  match e with
  | some e => lead ++ plainText e
  | none => ""

/-- A line at a depth. -/
def lineAt (depth : Nat) (text : String) : String :=
  "".pushn ' ' (4 * depth) ++ text

mutual

/-- The text of a pattern where the surroundings ask for a strength. -/
def patternText (asked : Nat) : Pattern → String
  | .value e => plainText e
  | .singleton value => constantText false value
  | .sequence patterns => "[" ++ commaList (patternTexts conditionalStrength patterns) ++ "]"
  | .mapping keys patterns rest =>
    let entries := (keys.map plainText).zip (patternTexts conditionalStrength patterns)
    let rest :=
      match rest with
      | some id => ["**" ++ id]
      | none => []
    "\x7b" ++ commaList (entries.map (fun (key, text) => key ++ ": " ++ text) ++ rest) ++ "\x7d"
  | .instanceOf cls patterns keywords keywordPatterns =>
    let named := keywords.zip (patternTexts conditionalStrength keywordPatterns)
    exprText false atomStrength cls ++ "(" ++
      commaList (patternTexts conditionalStrength patterns ++
        named.map fun (id, text) => id ++ "=" ++ text) ++ ")"
  | .star id => "*" ++ id.getD "_"
  | .bind _ none => "_"
  | .bind none (some id) => id
  | .bind (some p) (some id) =>
    guardText asked conditionalStrength (patternText bitOrStrength p ++ " as " ++ id)
  | .alternatives patterns =>
    guardText asked bitOrStrength (" | ".intercalate (patternTexts (bitOrStrength + 1) patterns))

/-- The texts of patterns. -/
def patternTexts (asked : Nat) : List Pattern → List String
  | [] => []
  | p :: ps => patternText asked p :: patternTexts asked ps

end

/-- The text of an imported name. -/
def aliasText (a : Alias) : String :=
  a.name ++
    match a.boundAs with
    | some id => " as " ++ id
    | none => ""

/-- The text of a context manager. -/
def withItemText (item : WithItem) : String :=
  plainText item.context ++ optionalText " as " item.target

/-- The line of a statement that holds no block. -/
def simpleText : Stmt → String
  | .returned _ value => "return" ++ optionalText " " value
  | .delete _ targets => "del " ++ commaList (targets.map plainText)
  | .assign _ targets value =>
    String.join (targets.map fun target => exprText false tupleStrength target ++ " = ") ++
      plainText value
  | .augmented _ target op value =>
    plainText target ++ " " ++ symbolOf op ++ "= " ++ plainText value
  | .annotated _ target annotation value simple =>
    let bare :=
      match target with
      | .name .. => !simple
      | _ => false
    (if bare then "(" ++ plainText target ++ ")" else plainText target) ++ ": " ++
      plainText annotation ++ optionalText " = " value
  | .raise _ none _ => "raise"
  | .raise _ exception cause =>
    "raise" ++ optionalText " " exception ++ optionalText " from " cause
  | .assert _ test message => "assert " ++ plainText test ++ optionalText ", " message
  | .imports _ names => "import " ++ commaList (names.map aliasText)
  | .importsFrom _ module names level =>
    "from " ++ "".pushn '.' level ++ module.getD "" ++ " import " ++
      commaList (names.map aliasText)
  | .globals _ names => "global " ++ commaList names
  | .nonlocals _ names => "nonlocal " ++ commaList names
  | .expression _ value => exprText false yieldStrength value
  | .pass _ => "pass"
  | .breakLoop _ => "break"
  | .continueLoop _ => "continue"
  | _ => ""

/-- The lines of decorators. -/
def decoratorLines (depth : Nat) (decorators : List Decorator) : List String :=
  decorators.map fun d => lineAt depth ("@" ++ plainText d.expression)

/-- The line of a statement that is a docstring where it stands first. -/
def docstring? : Stmt → Option String
  | .expression _ (.constant (.text points mark)) =>
    some ((if mark then "u" else "") ++ withQuotes longQuotes points)
  | _ => none

mutual

/-- The lines of a statement at a depth. -/
def stmtLines (depth : Nat) : Stmt → List String
  | .functionDef _ isAsync id parameters body decorators returns =>
    "" :: decoratorLines depth decorators ++
      lineAt depth ((if isAsync then "async def " else "def ") ++ id ++ "(" ++
        parametersText false parameters ++ ")" ++ optionalText " -> " returns ++ ":") ::
      definitionLines (depth + 1) body
  | .classDef _ id bases keywords body decorators =>
    let arguments := exprTexts false conditionalStrength 0 bases ++ keywordTexts false keywords
    "" :: decoratorLines depth decorators ++
      lineAt depth ("class " ++ id ++
        (if arguments.isEmpty then "" else "(" ++ commaList arguments ++ ")") ++ ":") ::
      definitionLines (depth + 1) body
  | .forLoop _ isAsync target source body otherwise =>
    lineAt depth ((if isAsync then "async for " else "for ") ++
      exprText false tupleStrength target ++ " in " ++ plainText source ++ ":") ::
      blockLines (depth + 1) body ++ optionalLines depth "else:" otherwise
  | .whileLoop _ test body otherwise =>
    lineAt depth ("while " ++ plainText test ++ ":") ::
      blockLines (depth + 1) body ++ optionalLines depth "else:" otherwise
  | .branch _ test body otherwise =>
    lineAt depth ("if " ++ plainText test ++ ":") ::
      blockLines (depth + 1) body ++ otherwiseLines depth otherwise
  | .withBlock _ isAsync items body =>
    lineAt depth ((if isAsync then "async with " else "with ") ++
      commaList (items.map withItemText) ++ ":") :: blockLines (depth + 1) body
  | .matchBlock _ subject cases =>
    lineAt depth ("match " ++ plainText subject ++ ":") :: caseLines (depth + 1) cases
  | .tryBlock _ isGroup body handlers otherwise final =>
    lineAt depth "try:" :: blockLines (depth + 1) body ++ handlerLines depth isGroup handlers ++
      optionalLines depth "else:" otherwise ++ optionalLines depth "finally:" final
  | s => [lineAt depth (simpleText s)]

/-- The lines of a block. -/
def blockLines (depth : Nat) : List Stmt → List String
  | [] => []
  | s :: rest => stmtLines depth s ++ blockLines depth rest

/-- The lines of the body of a definition, whose docstring is printed as such. -/
def definitionLines (depth : Nat) : List Stmt → List String
  | [] => []
  | s :: rest =>
    (match docstring? s with
    | some text => [lineAt depth text]
    | none => stmtLines depth s) ++ blockLines depth rest

/-- The lines of a block that need not be there. -/
def optionalLines (depth : Nat) (head : String) : List Stmt → List String
  | [] => []
  | s :: rest => lineAt depth head :: (stmtLines (depth + 1) s ++ blockLines (depth + 1) rest)

/-- The lines of the other side of a branch; a branch alone there continues the chain. -/
def otherwiseLines (depth : Nat) : List Stmt → List String
  | [] => []
  | [.branch _ test body otherwise] =>
    lineAt depth ("elif " ++ plainText test ++ ":") ::
      blockLines (depth + 1) body ++ otherwiseLines depth otherwise
  | s :: rest => lineAt depth "else:" :: (stmtLines (depth + 1) s ++ blockLines (depth + 1) rest)

/-- The lines of `except` clauses. -/
def handlerLines (depth : Nat) (isGroup : Bool) : List Handler → List String
  | [] => []
  | .mk type id body :: rest =>
    lineAt depth ((if isGroup then "except*" else "except") ++ optionalText " " type ++
      (match id with
      | some id => " as " ++ id
      | none => "") ++ ":") ::
      blockLines (depth + 1) body ++ handlerLines depth isGroup rest

/-- The lines of `case` blocks. -/
def caseLines (depth : Nat) : List Case → List String
  | [] => []
  | .mk pattern guard body :: rest =>
    lineAt depth ("case " ++ patternText conditionalStrength pattern ++
      optionalText " if " guard ++ ":") :: blockLines (depth + 1) body ++ caseLines depth rest

end

end Printer

/-- The lines of a statement. -/
def Stmt.textLines (s : Stmt) : List String :=
  match Printer.stmtLines 0 s with
  | "" :: rest => rest
  | lines => lines

/-- The text of a statement. -/
def Stmt.text (s : Stmt) : String :=
  "\n".intercalate s.textLines

/-- The text of a statement, or why it has none. -/
def Stmt.text? (s : Stmt) : Except Printer.Obstacle String :=
  match Printer.obstacle? (.stmt s) with
  | some obstacle => .error obstacle
  | none => .ok s.text

end ProbeWeave.Syntax
