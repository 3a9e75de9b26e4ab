import ProbeWeave.Syntax.Node

/-!
# Blocks and slots of statements

The blocks of a compound statement belong to the scope around it, except for those of a
definition. A slot is the expression of a statement that runs once and before everything else
of the statement.
-/

namespace ProbeWeave.Syntax

namespace Handler

/-- The body of an `except` clause. -/
def body : Handler → List Stmt
  | mk _ _ body => body

/-- An `except` clause with another body. -/
def withBody : Handler → List Stmt → Handler
  | mk type id _, body => mk type id body

end Handler

namespace Case

/-- The body of a `case` block. -/
def body : Case → List Stmt
  | mk _ _ body => body

/-- A `case` block with another body. -/
def withBody : Case → List Stmt → Case
  | mk pattern guard _, body => mk pattern guard body

end Case

namespace Stmt

/-- The blocks of a statement that belong to the scope around it. The clauses of `try` come
after its three other blocks. -/
def blocks : Stmt → List (List Stmt)
  | forLoop _ _ _ _ body otherwise => [body, otherwise]
  | whileLoop _ _ body otherwise => [body, otherwise]
  | branch _ _ body otherwise => [body, otherwise]
  | withBlock _ _ _ body => [body]
  | tryBlock _ _ body handlers otherwise final =>
    [body, otherwise, final] ++ handlers.map Handler.body
  | matchBlock _ _ cases => cases.map Case.body
  | _ => []

/-- A statement with other blocks. -/
def withBlocks : Stmt → List (List Stmt) → Stmt
  | forLoop lines isAsync target source _ _, [body, otherwise] =>
    forLoop lines isAsync target source body otherwise
  | whileLoop lines test _ _, [body, otherwise] => whileLoop lines test body otherwise
  | branch lines test _ _, [body, otherwise] => branch lines test body otherwise
  | withBlock lines isAsync items _, [body] => withBlock lines isAsync items body
  | tryBlock lines isGroup _ handlers _ _, body :: otherwise :: final :: bodies =>
    tryBlock lines isGroup body (handlers.zipWith Handler.withBody bodies) otherwise final
  | matchBlock lines subject cases, bodies =>
    matchBlock lines subject (cases.zipWith Case.withBody bodies)
  | s, _ => s

/-- The blocks of a statement put back in their places give the statement. -/
theorem withBlocks_blocks (s : Stmt) : s.withBlocks s.blocks = s := by
  cases s with
  | tryBlock lines isGroup body handlers otherwise final =>
    simp only [blocks, withBlocks, List.cons_append, List.nil_append]
    congr
    induction handlers with
    | nil => rfl
    | cons h hs ih => cases h; simp_all [Handler.withBody, Handler.body]
  | matchBlock lines subject cases =>
    simp only [blocks, withBlocks]
    congr
    induction cases with
    | nil => rfl
    | cons c cs ih => cases c; simp_all [Case.withBody, Case.body]
  | _ => rfl

/-- The value that a statement computes and then drops, binds or returns. -/
def value? : Stmt → Option Expr
  | expression _ value => some value
  | assign _ _ value => some value
  | returned _ value => value
  | annotated _ _ _ value _ => value
  | augmented _ _ _ value => some value
  | _ => none

/-- The expression that runs once and first whenever the statement does. -/
def slot? : Stmt → Option Expr
  | expression _ value => some value
  | assign _ _ value => some value
  | returned _ value => value
  | annotated _ _ _ value _ => value
  | augmented _ (.name ..) _ value => some value
  | branch _ test _ _ => some test
  | forLoop _ _ _ source _ _ => some source
  | withBlock _ _ (item :: _) _ => some item.context
  | raise _ exception _ => exception
  | matchBlock _ subject _ => some subject
  | _ => none

/-- A statement with another expression in its slot. -/
def withSlot : Stmt → Expr → Stmt
  | expression lines _, e => expression lines e
  | assign lines targets _, e => assign lines targets e
  | returned lines (some _), e => returned lines (some e)
  | annotated lines target annotation (some _) simple, e =>
    annotated lines target annotation (some e) simple
  | augmented lines (.name id use) op _, e => augmented lines (.name id use) op e
  | branch lines _ body otherwise, e => branch lines e body otherwise
  | forLoop lines isAsync target _ body otherwise, e =>
    forLoop lines isAsync target e body otherwise
  | withBlock lines isAsync (item :: items) body, e =>
    withBlock lines isAsync ({ item with context := e } :: items) body
  | raise lines (some _) cause, e => raise lines (some e) cause
  | matchBlock lines _ cases, e => matchBlock lines e cases
  | s, _ => s

/-- The expression of a slot put back in its place gives the statement. -/
theorem withSlot_slot {s : Stmt} {e : Expr} (h : s.slot? = some e) : s.withSlot e = s := by
  cases s with
  | withBlock lines isAsync items body =>
    cases items with
    | nil => simp [slot?] at h
    | cons item items =>
      simp only [slot?, Option.some.injEq] at h
      subst h
      rfl
  | _ => simp_all [slot?, withSlot] <;> (split at h <;> simp_all)

/-- Whether a statement is a loop. -/
def isLoop : Stmt → Bool
  | forLoop .. | whileLoop .. => true
  | _ => false

/-- Whether a statement is a `return`. -/
def isReturn : Stmt → Bool
  | returned .. => true
  | _ => false

/-- Whether a statement is a text that stands alone. -/
def isText : Stmt → Bool
  | expression _ (.constant (.text ..)) => true
  | _ => false

end Stmt

end ProbeWeave.Syntax
