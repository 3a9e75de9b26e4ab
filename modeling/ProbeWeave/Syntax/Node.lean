import ProbeWeave.Syntax.Tree

/-!
# Walking a syntax tree

`Node` is any part of a tree that a walk can stop at, and `Node.children` lists the parts
directly below it, field by field in the order in which the fields of its kind are declared.
Every walk of the library is built from `children`: `preorder` meets a node before what is
below it, `breadthFirst` meets a level before the next one.

The field order is not always the order of the text: the keys of a dictionary come before all
of its values, the test of a conditional expression before its first operand, positional
arguments before keyword arguments, and decorators after the body they decorate.
-/

namespace ProbeWeave.Syntax

/-- A part of a tree that a walk can stop at. -/
inductive Node where
  | stmt (s : Stmt)
  | expr (e : Expr)
  | keyword (k : Keyword)
  | clause (c : Clause)
  | parameters (p : Parameters)
  | parameter (p : Parameter)
  | handler (h : Handler)
  | withItem (w : WithItem)
  | matchCase (c : Case)
  | pattern (p : Pattern)

namespace DictItem

/-- The key of an entry; an unpacked mapping has none. -/
def key? : DictItem → Option Expr
  | pair key _ => some key
  | unpacked _ => none

/-- The value of an entry, or the mapping that is unpacked. -/
def value : DictItem → Expr
  | pair _ value => value
  | unpacked mapping => mapping

end DictItem

namespace Keyword

/-- The name of the argument; an unpacked mapping has none. -/
def name? : Keyword → Option String
  | mk name _ => name

/-- The value passed. -/
def value : Keyword → Expr
  | mk _ value => value

end Keyword

namespace Parameter

/-- The name a parameter binds. -/
def name : Parameter → String
  | mk name _ _ => name

/-- The annotation of a parameter. -/
def annotation? : Parameter → Option Expr
  | mk _ annotation _ => annotation

/-- The default value of a parameter. -/
def default? : Parameter → Option Expr
  | mk _ _ default => default

end Parameter

namespace Parameters

/-- Parameters that take a position only. -/
def positionalOnly : Parameters → List Parameter
  | mk ps _ _ _ _ => ps

/-- Parameters that take a position or a keyword. -/
def regular : Parameters → List Parameter
  | mk _ ps _ _ _ => ps

/-- The parameter that collects the remaining positions. -/
def rest : Parameters → Option Parameter
  | mk _ _ p _ _ => p

/-- Parameters that take a keyword only. -/
def keywordOnly : Parameters → List Parameter
  | mk _ _ _ ps _ => ps

/-- The parameter that collects the remaining keywords. -/
def keywordRest : Parameters → Option Parameter
  | mk _ _ _ _ p => p

/-- The parameters that can be given by position, in order. -/
def positional (p : Parameters) : List Parameter :=
  p.positionalOnly ++ p.regular

/-- Every parameter, the two collecting ones last. -/
def all (p : Parameters) : List Parameter :=
  p.positional ++ p.keywordOnly ++ p.rest.toList ++ p.keywordRest.toList

end Parameters

namespace Stmt

/-- The lines a statement spans. For a definition they begin at its `def` or `class` line. -/
def lines : Stmt → Lines
  | functionDef lines .. | classDef lines .. | returned lines .. | delete lines ..
  | assign lines .. | augmented lines .. | annotated lines .. | forLoop lines ..
  | whileLoop lines .. | branch lines .. | withBlock lines .. | matchBlock lines ..
  | raise lines .. | tryBlock lines .. | assert lines .. | imports lines ..
  | importsFrom lines .. | globals lines .. | nonlocals lines .. | expression lines ..
  | pass lines | breakLoop lines | continueLoop lines => lines

/-- The decorators of a definition. -/
def decorators : Stmt → List Decorator
  | functionDef _ _ _ _ _ decorators _ => decorators
  | classDef _ _ _ _ _ decorators => decorators
  | _ => []

/-- Definitions open a scope of their own. -/
def opensScope : Stmt → Bool
  | functionDef .. | classDef .. => true
  | _ => false

end Stmt

namespace Expr

/-- The parts directly below an expression. -/
def children : Expr → List Node
  | boolean _ operands => operands.map .expr
  | named target value => [.expr target, .expr value]
  | binary left _ right => [.expr left, .expr right]
  | unary _ operand => [.expr operand]
  | lambda parameters body => [.parameters parameters, .expr body]
  | conditional test body otherwise => [.expr test, .expr body, .expr otherwise]
  | dict items => (items.filterMap DictItem.key?).map .expr ++ items.map (.expr ·.value)
  | set elements => elements.map .expr
  | listComprehension element clauses => .expr element :: clauses.map .clause
  | setComprehension element clauses => .expr element :: clauses.map .clause
  | dictComprehension key value clauses => .expr key :: .expr value :: clauses.map .clause
  | generator element clauses => .expr element :: clauses.map .clause
  | await value => [.expr value]
  | yield value => value.toList.map .expr
  | yieldFrom value => [.expr value]
  | compare left _ comparators => .expr left :: comparators.map .expr
  | call _ callee arguments keywords =>
    .expr callee :: (arguments.map .expr ++ keywords.map .keyword)
  | formatted value _ format => .expr value :: format.toList.map .expr
  | joined parts => parts.map .expr
  | constant _ => []
  | member value _ => [.expr value]
  | subscript value index => [.expr value, .expr index]
  | starred value => [.expr value]
  | name .. => []
  | list elements => elements.map .expr
  | tuple elements => elements.map .expr
  | slice lower upper step => (lower.toList ++ upper.toList ++ step.toList).map .expr

end Expr

namespace Parameters

/-- The parts directly below a parameter list: parameters in their order, but the defaults of
keyword only parameters before the last parameter and the other defaults at the end. -/
def children (p : Parameters) : List Node :=
  (p.positionalOnly ++ p.regular ++ p.rest.toList ++ p.keywordOnly).map .parameter ++
    (p.keywordOnly.filterMap Parameter.default?).map .expr ++
    p.keywordRest.toList.map .parameter ++
    (p.positional.filterMap Parameter.default?).map .expr

end Parameters

namespace Pattern

/-- The parts directly below a pattern. -/
def children : Pattern → List Node
  | value expression => [.expr expression]
  | singleton _ => []
  | sequence patterns => patterns.map .pattern
  | mapping keys patterns _ => keys.map .expr ++ patterns.map .pattern
  | instanceOf cls patterns _ keywordPatterns =>
    .expr cls :: (patterns ++ keywordPatterns).map .pattern
  | star _ => []
  | bind pattern _ => pattern.toList.map .pattern
  | alternatives patterns => patterns.map .pattern

end Pattern

namespace Stmt

/-- The parts directly below a statement. -/
def children : Stmt → List Node
  | functionDef _ _ _ parameters body decorators returns =>
    .parameters parameters :: (body.map .stmt ++ decorators.map (.expr ·.expression) ++
      returns.toList.map .expr)
  | classDef _ _ bases keywords body decorators =>
    bases.map .expr ++ keywords.map .keyword ++ body.map .stmt ++
      decorators.map (.expr ·.expression)
  | returned _ value => value.toList.map .expr
  | delete _ targets => targets.map .expr
  | assign _ targets value => targets.map .expr ++ [.expr value]
  | augmented _ target _ value => [.expr target, .expr value]
  | annotated _ target annotation value _ =>
    .expr target :: .expr annotation :: value.toList.map .expr
  | forLoop _ _ target source body otherwise =>
    .expr target :: .expr source :: (body ++ otherwise).map .stmt
  | whileLoop _ test body otherwise => .expr test :: (body ++ otherwise).map .stmt
  | branch _ test body otherwise => .expr test :: (body ++ otherwise).map .stmt
  | withBlock _ _ items body => items.map .withItem ++ body.map .stmt
  | matchBlock _ subject cases => .expr subject :: cases.map .matchCase
  | raise _ exception cause => (exception.toList ++ cause.toList).map .expr
  | tryBlock _ _ body handlers otherwise final =>
    body.map .stmt ++ handlers.map .handler ++ (otherwise ++ final).map .stmt
  | assert _ test message => .expr test :: message.toList.map .expr
  | expression _ value => [.expr value]
  | imports .. | importsFrom .. | globals .. | nonlocals .. | pass .. | breakLoop ..
  | continueLoop .. => []

end Stmt

namespace Node

/-- The parts directly below a node, in field order. -/
def children : Node → List Node
  | stmt s => s.children
  | expr e => e.children
  | keyword k => [.expr k.value]
  | clause (.mk _ target source conditions) =>
    .expr target :: .expr source :: conditions.map .expr
  | parameters p => p.children
  | parameter p => p.annotation?.toList.map .expr
  | handler (.mk type _ body) => type.toList.map .expr ++ body.map .stmt
  | withItem w => .expr w.context :: w.target.toList.map .expr
  | matchCase (.mk shape guard body) =>
    .pattern shape :: (guard.toList.map .expr ++ body.map .stmt)
  | pattern p => p.children

/-- A key of an entry is smaller than the entry. -/
theorem sizeOf_lt_of_key {item : DictItem} {key : Expr} (h : item.key? = some key) :
    sizeOf key < sizeOf item := by
  cases item <;> simp_all [DictItem.key?] <;> omega

theorem sizeOf_value_lt (item : DictItem) : sizeOf item.value < sizeOf item := by
  cases item <;> simp [DictItem.value] <;> omega

theorem sizeOf_keyword_value_lt (k : Keyword) : sizeOf k.value < sizeOf k := by
  cases k; simp [Keyword.value] <;> omega

theorem sizeOf_lt_of_default {p : Parameter} {e : Expr} (h : p.default? = some e) :
    sizeOf e < sizeOf p := by
  cases p; simp_all [Parameter.default?] <;> omega

theorem sizeOf_lt_of_annotation {p : Parameter} {e : Expr} (h : p.annotation? = some e) :
    sizeOf e < sizeOf p := by
  cases p; simp_all [Parameter.annotation?] <;> omega

theorem sizeOf_lt_of_mem_toList {α : Type} [SizeOf α] {o : Option α} {a : α} (h : a ∈ o.toList) :
    sizeOf a < sizeOf o := by
  cases o <;> simp_all

/-- What is below an expression is smaller than the expression. -/
theorem sizeOf_lt_of_mem_exprChildren {e : Expr} {c : Node} (h : c ∈ e.children) :
    sizeOf c ≤ sizeOf e := by
  cases e <;> simp only [Expr.children, List.mem_cons, List.mem_append, List.mem_map,
    List.not_mem_nil, or_false, List.mem_filterMap] at h <;>
  grind [→ List.sizeOf_lt_of_mem, → sizeOf_lt_of_key, sizeOf_value_lt, → sizeOf_lt_of_mem_toList]

theorem sizeOf_decorator_lt (d : Decorator) : sizeOf d.expression < sizeOf d := by
  cases d; simp <;> omega

theorem sizeOf_lt_of_mem_parametersChildren {p : Parameters} {c : Node} (h : c ∈ p.children) :
    sizeOf c ≤ sizeOf p := by
  cases p
  simp only [Parameters.children, Parameters.positionalOnly, Parameters.regular,
    Parameters.rest, Parameters.keywordOnly, Parameters.keywordRest, Parameters.positional,
    List.mem_append, List.mem_map, List.mem_filterMap] at h
  grind [→ List.sizeOf_lt_of_mem, → sizeOf_lt_of_default, → sizeOf_lt_of_mem_toList]

theorem sizeOf_lt_of_mem_patternChildren {p : Pattern} {c : Node} (h : c ∈ p.children) :
    sizeOf c ≤ sizeOf p := by
  cases p <;> simp only [Pattern.children, List.mem_cons, List.mem_append, List.mem_map,
    List.not_mem_nil, or_false] at h <;>
  grind [→ List.sizeOf_lt_of_mem, → sizeOf_lt_of_mem_toList]

theorem sizeOf_lt_of_mem_stmtChildren {s : Stmt} {c : Node} (h : c ∈ s.children) :
    sizeOf c ≤ sizeOf s := by
  cases s <;> simp only [Stmt.children, List.mem_cons, List.mem_append, List.mem_map,
    List.not_mem_nil, or_false] at h <;>
  grind [→ List.sizeOf_lt_of_mem, → sizeOf_lt_of_mem_toList, sizeOf_decorator_lt]

/-- What is below a node is smaller than the node. -/
theorem sizeOf_lt_of_mem_children {n c : Node} (h : c ∈ n.children) : sizeOf c < sizeOf n := by
  cases n with
  | stmt s => have := sizeOf_lt_of_mem_stmtChildren h; simp <;> omega
  | expr e => have := sizeOf_lt_of_mem_exprChildren h; simp <;> omega
  | parameters p => have := sizeOf_lt_of_mem_parametersChildren h; simp <;> omega
  | pattern p => have := sizeOf_lt_of_mem_patternChildren h; simp <;> omega
  | keyword k =>
    have := sizeOf_keyword_value_lt k
    simp only [children, List.mem_singleton] at h
    subst h; simp <;> omega
  | clause cl =>
    cases cl
    simp only [children, List.mem_cons, List.mem_map] at h
    grind [→ List.sizeOf_lt_of_mem]
  | parameter p =>
    simp only [children, List.mem_map, Option.mem_toList] at h
    grind [→ sizeOf_lt_of_annotation]
  | handler hd =>
    cases hd
    simp only [children, List.mem_append, List.mem_map] at h
    grind [→ List.sizeOf_lt_of_mem, → sizeOf_lt_of_mem_toList]
  | withItem w =>
    cases w
    simp only [children, List.mem_cons, List.mem_map] at h
    grind [→ sizeOf_lt_of_mem_toList]
  | matchCase cs =>
    cases cs
    simp only [children, List.mem_cons, List.mem_append, List.mem_map] at h
    grind [→ List.sizeOf_lt_of_mem, → sizeOf_lt_of_mem_toList]

/-- A node, then all that is below it, each part with what is below it before the next. -/
def preorder (n : Node) : List Node :=
  n :: n.children.attach.flatMap fun ⟨c, _⟩ => preorder c
termination_by sizeOf n
decreasing_by exact sizeOf_lt_of_mem_children ‹_›

theorem preorder_eq (n : Node) : n.preorder = n :: n.children.flatMap preorder := by
  rw [preorder]
  simp [List.flatMap_def]

/-- The largest size among the given nodes. -/
noncomputable def maxSize (ns : List Node) : Nat :=
  ns.foldr (fun n m => max (sizeOf n) m) 0

theorem sizeOf_le_maxSize {ns : List Node} {n : Node} (h : n ∈ ns) : sizeOf n ≤ maxSize ns := by
  induction ns with
  | nil => simp at h
  | cons a rest ih =>
    simp only [maxSize, List.foldr_cons] at ih ⊢
    rcases List.mem_cons.1 h with rfl | h
    · omega
    · have := ih h
      omega

theorem maxSize_lt {ns : List Node} {k : Nat} (hk : 0 < k) (h : ∀ n ∈ ns, sizeOf n < k) :
    maxSize ns < k := by
  induction ns with
  | nil => simpa [maxSize] using hk
  | cons a rest ih =>
    have h₁ := h a (by simp)
    have h₂ := ih fun n hn => h n (by simp [hn])
    simp only [maxSize, List.foldr_cons] at h₂ ⊢
    omega

/-- The nodes at or below the given ones, level by level. -/
def levels (ns : List Node) : List Node :=
  match ns with
  | [] => []
  | n :: rest => (n :: rest) ++ levels ((n :: rest).flatMap children)
termination_by maxSize ns
decreasing_by
  refine maxSize_lt ?_ fun c hc => ?_
  · have : sizeOf n ≤ maxSize (n :: rest) := sizeOf_le_maxSize (by simp)
    have : 0 < sizeOf n := by cases n <;> simp <;> omega
    omega
  · obtain ⟨m, hm, hc⟩ := List.mem_flatMap.1 hc
    exact Nat.lt_of_lt_of_le (sizeOf_lt_of_mem_children hc) (sizeOf_le_maxSize hm)

/-- A node and all that is below it, the nearer ones first. -/
def breadthFirst (n : Node) : List Node :=
  levels [n]

end Node

end ProbeWeave.Syntax
