import ProbeWeave.Weaving.Mark
import ProbeWeave.Weaving.ProbeStatement

/-!
# Putting probes around marked statements

Weaving rebuilds a marked block: calls that run ahead are bound to their temporaries between the
start and the stop of their probes, and a site is put between those of its own probe. A returned
call is bound to a temporary first, because nothing runs behind a `return`.

What was applied is listed in the order in which it is built: first what is inside the blocks of
a statement, then its hoisted calls, then its own site.
-/

namespace ProbeWeave.Weaving

open Syntax

/-- What kind of change was made to a statement. -/
inductive ChangeKind where
  | call
  | returned
  | loop
  deriving DecidableEq, Repr

/-- A probe that was put around a statement or a call. -/
structure Change where
  kind : ChangeKind
  probe : String
  deriving DecidableEq, Repr

/-- The kind of change that a site amounts to. -/
def SiteKind.change : SiteKind → ChangeKind
  | standalone | bound => .call
  | returned _ => .returned
  | loop => .loop

namespace Site

/-- The statements that run a call ahead. -/
def ahead (site : Site) (hoist : Hoist) : List Stmt :=
  [site.start hoist.probe, bindName hoist.temporary hoist.bound, site.stop hoist.probe]

/-- A statement between the start and the stop of its probe. -/
def around (site : Site) (s : Stmt) (mark : StatementSite) : List Stmt :=
  match mark.kind, s.slot? with
  | .returned temporary, some value =>
    [site.start mark.probe, bindName temporary value, site.stop mark.probe,
      returnName temporary]
  | _, _ => [site.start mark.probe, s, site.stop mark.probe]

/-- A statement whose blocks are rebuilt, with what its own mark asks for. -/
def apply (site : Site) (s : Stmt) (mark : Mark) : List Stmt :=
  let s :=
    match mark.slot with
    | some e => s.withSlot e
    | none => s
  mark.hoists.flatMap site.ahead ++
    match mark.site with
    | some own => site.around s own
    | none => [s]

/-- What the mark of one statement changes. -/
def changesOf (mark : Mark) : List Change :=
  mark.hoists.map (fun h => ⟨.call, h.probe⟩) ++
    (mark.site.map fun own => Change.mk own.kind.change own.probe).toList

mutual

/-- Rebuilds a marked statement: what takes its place and what was changed. -/
def weave (site : Site) : Marked → List Stmt × List Change
  | .mk s mark blocks =>
    let (bodies, changes) := weaveBlocks site blocks
    (site.apply (s.withBlocks bodies) mark, changes ++ changesOf mark)

/-- Rebuilds a block. -/
def weaveBlock (site : Site) : List Marked → List Stmt × List Change
  | [] => ([], [])
  | m :: rest =>
    let (first, changes) := weave site m
    let (others, more) := weaveBlock site rest
    (first ++ others, changes ++ more)

/-- Rebuilds blocks. -/
def weaveBlocks (site : Site) : List (List Marked) → List (List Stmt) × List Change
  | [] => ([], [])
  | b :: rest =>
    let (first, changes) := weaveBlock site b
    let (others, more) := weaveBlocks site rest
    (first :: others, changes ++ more)

end

end Site

end ProbeWeave.Weaving
