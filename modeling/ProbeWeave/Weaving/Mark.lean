import ProbeWeave.Weaving.Hoist
import ProbeWeave.Syntax.Block
import ProbeWeave.Probe.Registry

/-!
# Which statements are timed

Mapping walks the body of a routine and marks its statements: a statement whose whole value is a
timed call is a site, a loop that makes timed calls is one, and calls inside larger expressions
are hoisted. Loop probes are allocated on the way, so their numbers follow the order of the walk:
a loop before the loops inside it.

The marks make a tree with the shape of the blocks; nothing is looked up by identity, so marking
makes sense for any tree.
-/

namespace ProbeWeave.Weaving

open Syntax Probe Graph

/-- How a statement is timed as a whole. -/
inductive SiteKind where
  /-- A call that stands alone. -/
  | standalone
  /-- A call whose value is assigned. -/
  | bound
  /-- A call whose value is returned through a temporary. -/
  | returned (temporary : String)
  /-- A loop. -/
  | loop
  deriving DecidableEq, Repr

/-- The probe around a statement. -/
structure StatementSite where
  kind : SiteKind
  probe : String
  deriving DecidableEq, Repr

/-- What mapping found for one statement. -/
structure Mark where
  site : Option StatementSite
  /-- The calls that run ahead of the statement, in order. -/
  hoists : List Hoist
  /-- What stays in the slot of the statement when the calls are moved out. -/
  slot : Option Expr

/-- A statement with its mark and the marked statements of its blocks. -/
inductive Marked where
  | mk (statement : Stmt) (mark : Mark) (blocks : List (List Marked))

/-- What mapping a routine knows between two statements. -/
structure Mapping where
  supply : Supply
  registry : Registry

/-- What decides whether a call is timed, for the routine that is mapped. -/
structure Timing where
  routine : Routine
  /-- The probe of a call, if it is timed. -/
  probeOf : Call → Option String

namespace Timing

/-- The probe of an expression that is a timed call, awaited or not. -/
def probeOfValue (timing : Timing) (e : Option Expr) : Option String :=
  (e.bind Expr.unwrapCall?).bind timing.probeOf

/-- Whether statements make a timed call in their own scope. -/
def callsTimed (timing : Timing) (body : List Stmt) : Bool :=
  (calls body).any fun call => (timing.probeOf call).isSome

/-- The site of a statement that is a timed call as a whole. -/
def callSite? (timing : Timing) (s : Stmt) (supply : Supply) :
    Option StatementSite × Supply :=
  match timing.probeOfValue s.slot? with
  | none => (none, supply)
  | some probe =>
    match s with
    | .expression .. => (some ⟨.standalone, probe⟩, supply)
    | .assign .. | .annotated .. => (some ⟨.bound, probe⟩, supply)
    | .returned .. =>
      let (temporary, supply) := supply.next
      (some ⟨.returned temporary, probe⟩, supply)
    | _ => (none, supply)

/-- The statements a loop repeats and those that run when it ends. -/
def loopStatements : Stmt → List Stmt
  | .forLoop _ _ _ _ body otherwise | .whileLoop _ _ body otherwise => body ++ otherwise
  | _ => []

/--
Moves calls out of the slot of a statement; if the value of the slot is a site, only out of its
operands. Gives what stays in the slot and what the walk knows at the end.
-/
def hoistSlot (probeOf : Call → Option String) (isSite : Bool) (s : Stmt) (supply : Supply) :
    Option Expr × Hoisting :=
  let walk := Hoisting.start supply
  match s.slot? with
  | some e =>
    let (e, walk) :=
      if isSite then Hoisting.visitOperands probeOf e walk else Hoisting.visit probeOf e walk
    (some e, walk)
  | none => (none, walk)

/-- The mark of a statement, its blocks left aside. -/
def mark (timing : Timing) (s : Stmt) (m : Mapping) : Mark × Mapping :=
  let (site, supply) := timing.callSite? s m.supply
  let (loop, registry) :=
    if s.isLoop && timing.callsTimed (loopStatements s) then
      let (probe, registry) := m.registry.addLoop timing.routine s.lines.first
      (some ⟨.loop, probe.name⟩, registry)
    else (none, m.registry)
  let (slot, walk) := hoistSlot timing.probeOf site.isSome s supply
  (⟨site.or loop, walk.hoists, slot⟩, ⟨walk.supply, registry⟩)

mutual

/-- Marks a statement and its blocks. Definitions inside a routine are left alone. -/
def markStmt (timing : Timing) (s : Stmt) (m : Mapping) : Marked × Mapping :=
  match s with
  | .functionDef .. | .classDef .. => (.mk s ⟨none, [], none⟩ [], m)
  | .forLoop _ _ _ _ body otherwise | .whileLoop _ _ body otherwise
  | .branch _ _ body otherwise =>
    let (mark, m) := timing.mark s m
    let (body, m) := markBlock timing body m
    let (otherwise, m) := markBlock timing otherwise m
    (.mk s mark [body, otherwise], m)
  | .withBlock _ _ _ body =>
    let (mark, m) := timing.mark s m
    let (body, m) := markBlock timing body m
    (.mk s mark [body], m)
  | .tryBlock _ _ body handlers otherwise final =>
    let (mark, m) := timing.mark s m
    let (body, m) := markBlock timing body m
    let (otherwise, m) := markBlock timing otherwise m
    let (final, m) := markBlock timing final m
    let (handlers, m) := markHandlers timing handlers m
    (.mk s mark (body :: otherwise :: final :: handlers), m)
  | .matchBlock _ _ cases =>
    let (mark, m) := timing.mark s m
    let (cases, m) := markCases timing cases m
    (.mk s mark cases, m)
  | _ =>
    let (mark, m) := timing.mark s m
    (.mk s mark [], m)

/-- Marks the statements of a block. -/
def markBlock (timing : Timing) (body : List Stmt) (m : Mapping) : List Marked × Mapping :=
  match body with
  | [] => ([], m)
  | s :: rest =>
    let (first, m) := markStmt timing s m
    let (rest, m) := markBlock timing rest m
    (first :: rest, m)

/-- Marks the bodies of `except` clauses. -/
def markHandlers (timing : Timing) (handlers : List Handler) (m : Mapping) :
    List (List Marked) × Mapping :=
  match handlers with
  | [] => ([], m)
  | .mk _ _ body :: rest =>
    let (first, m) := markBlock timing body m
    let (rest, m) := markHandlers timing rest m
    (first :: rest, m)

/-- Marks the bodies of `case` blocks. -/
def markCases (timing : Timing) (cases : List Case) (m : Mapping) :
    List (List Marked) × Mapping :=
  match cases with
  | [] => ([], m)
  | .mk _ _ body :: rest =>
    let (first, m) := markBlock timing body m
    let (rest, m) := markCases timing rest m
    (first :: rest, m)

end

end Timing

namespace Marked

/-- The mark of a statement. -/
def mark : Marked → Mark
  | mk _ mark _ => mark

mutual

/-- The marks of a statement and of those in its blocks. -/
def marks : Marked → List Mark
  | mk _ mark blocks => mark :: marksOfBlocks blocks

/-- The marks of statements. -/
def marksOfBlock : List Marked → List Mark
  | [] => []
  | m :: rest => marks m ++ marksOfBlock rest

/-- The marks of the statements of blocks. -/
def marksOfBlocks : List (List Marked) → List Mark
  | [] => []
  | b :: rest => marksOfBlock b ++ marksOfBlocks rest

end

end Marked

/-- Whether a mark changes its statement. -/
def Mark.isActive (mark : Mark) : Bool :=
  mark.site.isSome || !mark.hoists.isEmpty

end ProbeWeave.Weaving
