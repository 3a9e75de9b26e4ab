import ProbeWeave.Syntax.Node

/-!
# Calls and names in a tree

`calls` lists the calls that belong to the scope of some statements: definitions and functions
without a name open scopes of their own and are passed over whole. `scopeNodes` lists the nodes
of a scope; it meets definitions, whose names the scope binds, but not what is inside them.
-/

namespace ProbeWeave.Syntax

/-- A call: where it starts, what is called and what with. -/
structure Call where
  start : Position
  callee : Expr
  arguments : List Expr
  keywords : List Keyword

/-- The expression that a call is. -/
def Call.toExpr (c : Call) : Expr :=
  .call c.start c.callee c.arguments c.keywords

namespace Expr

/-- The call that an expression is. -/
def asCall? : Expr → Option Call
  | call start callee arguments keywords => some ⟨start, callee, arguments, keywords⟩
  | _ => none

/-- The call that an expression is, awaited or not. -/
def unwrapCall? : Expr → Option Call
  | await value => value.asCall?
  | e => e.asCall?

/-- The parts of a chain of member accesses on a name. -/
def dottedParts? : Expr → Option (List String)
  | name id _ => some [id]
  | member value id => value.dottedParts?.map (· ++ [id])
  | _ => none

/-- A chain of member accesses on a name, with points between. -/
def dottedName? (e : Expr) : Option String :=
  e.dottedParts?.map (".".intercalate ·)

/-- The name that a chain of members, subscripts and calls starts from. -/
def headName? : Expr → Option String
  | name id _ => some id
  | member value _ => value.headName?
  | subscript value _ => value.headName?
  | call _ callee _ _ => callee.headName?
  | _ => none

end Expr

namespace Node

/-- Whether a node opens a scope of its own. -/
def opensScope : Node → Bool
  | stmt s => s.opensScope
  | expr (.lambda ..) => true
  | _ => false

/-- The call that a node is. -/
def asCall? : Node → Option Call
  | expr e => e.asCall?
  | _ => none

/-- The calls at or below a node that belong to the scope around it. -/
def calls (n : Node) : List Call :=
  if n.opensScope then []
  else n.asCall?.toList ++ n.children.attach.flatMap fun ⟨c, _⟩ => calls c
termination_by sizeOf n
decreasing_by exact sizeOf_lt_of_mem_children ‹_›

theorem calls_eq (n : Node) :
    n.calls = if n.opensScope then [] else n.asCall?.toList ++ n.children.flatMap calls := by
  rw [calls]
  simp [List.flatMap_def]

/-- A node and, unless it opens a scope, all nodes of the same scope below it. -/
def scopeNodes (n : Node) : List Node :=
  n :: if n.opensScope then [] else n.children.attach.flatMap fun ⟨c, _⟩ => scopeNodes c
termination_by sizeOf n
decreasing_by exact sizeOf_lt_of_mem_children ‹_›

theorem scopeNodes_eq (n : Node) :
    n.scopeNodes = n :: if n.opensScope then [] else n.children.flatMap scopeNodes := by
  rw [scopeNodes]
  simp [List.flatMap_def]

end Node

/-- The calls that belong to the scope of some statements, in field order. -/
def calls (body : List Stmt) : List Call :=
  body.flatMap fun s => (Node.stmt s).calls

/-- The nodes of the scope of some statements. -/
def scopeNodes (body : List Stmt) : List Node :=
  body.flatMap fun s => (Node.stmt s).scopeNodes

end ProbeWeave.Syntax
