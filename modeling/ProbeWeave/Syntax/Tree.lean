/-!
# Abstract syntax of Python modules

The tree that the rest of the library reads and rebuilds: expressions, patterns and
statements of Python 3.11. Statements know the lines they span and calls know where they
start; every other node is a plain value, so two trees that differ only in layout are equal
up to those fields.

The tree is more liberal than the language: that a target can be assigned to, or that an
argument without a default does not follow one with a default, is checked by the grammar
and not by these types.
-/

namespace ProbeWeave.Syntax

/-- A place in a text: a line counted from 1 and a column counted from 0. -/
structure Position where
  line : Nat
  column : Nat
  deriving DecidableEq, Inhabited, Repr

namespace Position

/-- Positions are ordered as they are read: by line, then by column. -/
def before (p q : Position) : Bool :=
  p.line < q.line || (p.line == q.line && p.column < q.column)

/-- The position given to nodes that no text was read for. -/
def nowhere : Position := ⟨0, 0⟩

end Position

/-- The lines a statement spans, both ends included. -/
structure Lines where
  first : Nat
  last : Nat
  deriving DecidableEq, Inhabited, Repr

/-- The lines given to statements that no text was read for. -/
def Lines.nowhere : Lines := ⟨0, 0⟩

/-- The two operators that stop as soon as their value is known. -/
inductive BoolOp where
  | and | or
  deriving DecidableEq, Inhabited, Repr

/-- The operators between two operands that are both evaluated. -/
inductive BinaryOp where
  | add | subtract | multiply | matrixMultiply | divide | modulo | power
  | shiftLeft | shiftRight | bitOr | bitXor | bitAnd | floorDivide
  deriving DecidableEq, Inhabited, Repr

/-- The operators in front of one operand. -/
inductive UnaryOp where
  | invert | not | plus | minus
  deriving DecidableEq, Inhabited, Repr

/-- The links of a comparison chain. -/
inductive CompareOp where
  | equal | notEqual | less | lessEqual | greater | greaterEqual
  | same | notSame | member | notMember
  deriving DecidableEq, Inhabited, Repr

/-- How a replacement field of a formatted string turns its value into text first. -/
inductive Conversion where
  | str | repr | ascii
  deriving DecidableEq, Inhabited, Repr

/-- What a name stands for where it is written: a read, a binding or a deletion. -/
inductive NameUse where
  | load | store | delete
  deriving DecidableEq, Inhabited, Repr

/--
Constant values. A text is kept as code points because an escape can name a surrogate; a
floating point number is kept as the bits of its double, and an imaginary one likewise.
-/
inductive Constant where
  | none
  | true
  | false
  | ellipsis
  | int (value : Nat)
  | float (bits : UInt64)
  | imaginary (bits : UInt64)
  | text (points : List Nat) (unicodeMark : Bool)
  | bytes (values : List Nat)
  deriving DecidableEq, Inhabited, Repr

mutual

/-- Expressions. -/
inductive Expr where
  | boolean (op : BoolOp) (operands : List Expr)
  | named (target : Expr) (value : Expr)
  | binary (left : Expr) (op : BinaryOp) (right : Expr)
  | unary (op : UnaryOp) (operand : Expr)
  | lambda (parameters : Parameters) (body : Expr)
  | conditional (test : Expr) (body : Expr) (otherwise : Expr)
  | dict (items : List DictItem)
  | set (elements : List Expr)
  | listComprehension (element : Expr) (clauses : List Clause)
  | setComprehension (element : Expr) (clauses : List Clause)
  | dictComprehension (key : Expr) (value : Expr) (clauses : List Clause)
  | generator (element : Expr) (clauses : List Clause)
  | await (value : Expr)
  | yield (value : Option Expr)
  | yieldFrom (value : Expr)
  | compare (left : Expr) (ops : List CompareOp) (comparators : List Expr)
  | call (start : Position) (callee : Expr) (arguments : List Expr) (keywords : List Keyword)
  | formatted (value : Expr) (conversion : Option Conversion) (format : Option Expr)
  | joined (parts : List Expr)
  | constant (value : Constant)
  | member (value : Expr) (name : String)
  | subscript (value : Expr) (index : Expr)
  | starred (value : Expr)
  | name (id : String) (use : NameUse)
  | list (elements : List Expr)
  | tuple (elements : List Expr)
  | slice (lower : Option Expr) (upper : Option Expr) (step : Option Expr)

/-- A keyword argument, or a mapping unpacked into keyword arguments when it has no name. -/
inductive Keyword where
  | mk (name : Option String) (value : Expr)

/-- An entry of a dictionary display, or a mapping unpacked into it. -/
inductive DictItem where
  | pair (key : Expr) (value : Expr)
  | unpacked (mapping : Expr)

/-- One `for` clause of a comprehension with the conditions that follow it. -/
inductive Clause where
  | mk (isAsync : Bool) (target : Expr) (source : Expr) (conditions : List Expr)

/-- A parameter with its annotation and its default value. -/
inductive Parameter where
  | mk (name : String) ( annotation : Option Expr) (default : Option Expr)

/--
The parameters of a definition: positional only, positional or keyword, the one that
collects further positions, keyword only, and the one that collects further keywords.
-/
inductive Parameters where
  | mk (positionalOnly : List Parameter) (regular : List Parameter) (rest : Option Parameter)
      (keywordOnly : List Parameter) (keywordRest : Option Parameter)

end

instance : Inhabited Expr := ⟨.constant .none⟩

instance : Inhabited Parameters := ⟨.mk [] [] none [] none⟩

/-- Patterns of `case` blocks. -/
inductive Pattern where
  | value (expression : Expr)
  | singleton (constant : Constant)
  | sequence (patterns : List Pattern)
  | mapping (keys : List Expr) (patterns : List Pattern) (rest : Option String)
  | instanceOf (cls : Expr) (patterns : List Pattern) (keywords : List String)
      (keywordPatterns : List Pattern)
  | star (name : Option String)
  | bind (pattern : Option Pattern) (name : Option String)
  | alternatives (patterns : List Pattern)

instance : Inhabited Pattern := ⟨.star none⟩

/-- One name of an import statement, with the name it is bound to if that differs. -/
structure Alias where
  name : String
  boundAs : Option String
  deriving DecidableEq, Inhabited, Repr

/-- A decorator and the line its expression starts on. -/
structure Decorator where
  line : Nat
  expression : Expr
  deriving Inhabited

/-- One context manager of a `with` statement and the target its value is bound to. -/
structure WithItem where
  context : Expr
  target : Option Expr
  deriving Inhabited

mutual

/-- Statements. -/
inductive Stmt where
  | functionDef (lines : Lines) (isAsync : Bool) (name : String) (parameters : Parameters)
      (body : List Stmt) (decorators : List Decorator) (returns : Option Expr)
  | classDef (lines : Lines) (name : String) (bases : List Expr) (keywords : List Keyword)
      (body : List Stmt) (decorators : List Decorator)
  | returned (lines : Lines) (value : Option Expr)
  | delete (lines : Lines) (targets : List Expr)
  | assign (lines : Lines) (targets : List Expr) (value : Expr)
  | augmented (lines : Lines) (target : Expr) (op : BinaryOp) (value : Expr)
  | annotated (lines : Lines) (target : Expr) ( annotation : Expr) (value : Option Expr)
      (simple : Bool)
  | forLoop (lines : Lines) (isAsync : Bool) (target : Expr) (source : Expr)
      (body : List Stmt) (otherwise : List Stmt)
  | whileLoop (lines : Lines) (test : Expr) (body : List Stmt) (otherwise : List Stmt)
  | branch (lines : Lines) (test : Expr) (body : List Stmt) (otherwise : List Stmt)
  | withBlock (lines : Lines) (isAsync : Bool) (items : List WithItem) (body : List Stmt)
  | matchBlock (lines : Lines) (subject : Expr) (cases : List Case)
  | raise (lines : Lines) (exception : Option Expr) (cause : Option Expr)
  | tryBlock (lines : Lines) (isGroup : Bool) (body : List Stmt) (handlers : List Handler)
      (otherwise : List Stmt) (final : List Stmt)
  | assert (lines : Lines) (test : Expr) (message : Option Expr)
  | imports (lines : Lines) (names : List Alias)
  | importsFrom (lines : Lines) (module : Option String) (names : List Alias) (level : Nat)
  | globals (lines : Lines) (names : List String)
  | nonlocals (lines : Lines) (names : List String)
  | expression (lines : Lines) (value : Expr)
  | pass (lines : Lines)
  | breakLoop (lines : Lines)
  | continueLoop (lines : Lines)

/-- An `except` clause. -/
inductive Handler where
  | mk (type : Option Expr) (name : Option String) (body : List Stmt)

/-- A `case` block. -/
inductive Case where
  | mk (pattern : Pattern) (guard : Option Expr) (body : List Stmt)

end

instance : Inhabited Stmt := ⟨.pass .nowhere⟩

end ProbeWeave.Syntax
