import ProbeWeave.Syntax.Tree

/-!
# Tokens

The words of a source file as the grammar sees them. Layout is part of the words: a line ends
with `newline`, and a change of indentation shows as `indent` or `dedent`. Text that has no
words ends the list with `broken`.
-/

namespace ProbeWeave.Syntax

/-- How a text breaks the rules of the grammar. -/
inductive Breach where
  /-- A word fits no rule. -/
  | invalid
  /-- A block is missing, or its indentation fits no open block. -/
  | indentation
  /-- Whether a line is indented further depends on the width of a tab. -/
  | tabs
  deriving DecidableEq, Inhabited, Repr

/-- Why a text is not a module. -/
inductive Fault where
  /-- The text breaks a rule of the grammar. -/
  | invalid
  /-- A block is missing, or its indentation fits no open block. -/
  | indentation
  /-- Whether a line is indented further depends on the width of a tab. -/
  | tabs
  /-- The text contains the character zero. -/
  | zeroCharacter
  deriving DecidableEq, Inhabited, Repr

/-- The fault of a text that breaks a rule. -/
def Breach.fault : Breach → Fault
  | invalid => .invalid
  | indentation => .indentation
  | tabs => .tabs

/-- A word of a source file. -/
inductive Token where
  | name (id : String)
  | keyword (word : String)
  | number (value : Constant)
  | string (literal : List Char)
  | operator (symbol : String)
  | newline
  | indent
  | dedent
  | finish
  | broken (breach : Breach)
  deriving DecidableEq, Inhabited, Repr

/-- A token, where it starts and the line it ends on. -/
structure Lexeme where
  token : Token
  start : Position
  lastLine : Nat
  deriving Inhabited, Repr

/-- Layout tokens have no text of their own. -/
def Token.isLayout : Token → Bool
  | newline | indent | dedent | finish => true
  | _ => false

/-- The words that are never names. -/
def reservedWords : List String :=
  ["False", "None", "True", "and", "as", "assert", "async", "await", "break", "class",
   "continue", "def", "del", "elif", "else", "except", "finally", "for", "from", "global", "if",
   "import", "in", "is", "lambda", "nonlocal", "not", "or", "pass", "raise", "return", "try",
   "while", "with", "yield"]

end ProbeWeave.Syntax
