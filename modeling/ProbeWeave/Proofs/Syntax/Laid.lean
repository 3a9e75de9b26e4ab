import ProbeWeave.Proofs.Syntax.Reading
import ProbeWeave.Proofs.Syntax.TokenSpans

/-! # What stands in front of a cursor

Nodes are laid in a stretch of text if the calls of each start in it, behind those of the nodes in
front. What a rule reads is laid between the cursors in front of it and behind it, so rules that follow
one another leave their nodes in order. Passing a token only makes the stretch longer.
-/

namespace ProbeWeave.Syntax

open Lexer Node

/-! ### Nodes in a stretch of text -/

/-- Whether the calls of nodes start between two positions and in front of a limit, those of each node
behind those of the nodes in front of it, and lie below each node as written. -/
structure Laid (limit p q : Position) (ns : List Node) : Prop where
  upright : p ≤ q
  inside : ∀ n ∈ ns, ∀ c ∈ n.calls, p ≤ c.start ∧ c.start < q ∧ c.start < limit
  sound : ∀ n ∈ ns, n.Sound
  ordered : ns.Pairwise InFront

namespace Node

variable {n : Node} {parts : List Node}

/-- Whether a node is made of parts, given as they are written, and of nothing else: it is no call and
opens no scope. -/
structure MadeOf (n : Node) (parts : List Node) : Prop where
  flat : n.opensScope = false
  writes : n.Writes parts
  plain : n.asCall? = none

theorem calls_of_plain (flat : n.opensScope = false) (plain : n.asCall? = none) :
    n.calls = n.children.flatMap calls := by
  rw [calls_eq, plain, if_neg (by simp [flat])]
  rfl

theorem MadeOf.calls_eq (made : n.MadeOf parts) : n.calls = n.children.flatMap calls :=
  calls_of_plain made.flat made.plain

theorem MadeOf.sound (made : n.MadeOf parts) (ordered : parts.Pairwise InFront)
    (below : ∀ part ∈ n.children, part.Sound) : n.Sound :=
  .node made.flat made.writes ordered (by simp [made.plain]) below

/-- Whether a node holds no calls. -/
structure Quiet (n : Node) : Prop where
  sound : n.Sound
  silent : n.calls = []

/-- A node without parts. -/
theorem MadeOf.quiet (made : n.MadeOf []) : n.Quiet := by
  have empty : n.children = [] := List.nil_perm.mp made.writes.perm
  exact ⟨made.sound .nil (by simp [empty]), by rw [made.calls_eq, empty, List.flatMap_nil]⟩

theorem quiet_of_scope (opened : n.opensScope = true) (sound : n.Sound) : n.Quiet :=
  ⟨sound, by rw [calls_eq, if_pos opened]⟩

theorem quiet_constant (value : Constant) : (expr (.constant value)).Quiet :=
  MadeOf.quiet ⟨rfl, rfl, rfl⟩

theorem quiet_name (id : String) (use : NameUse) : (expr (.name id use)).Quiet :=
  MadeOf.quiet ⟨rfl, rfl, rfl⟩

end Node

namespace Laid

variable {limit limit' p p' m q q' : Position} {ns parts more : List Node} {n : Node}

theorem nil (upright : p ≤ q) : Laid limit p q [] :=
  ⟨upright, nofun, nofun, .nil⟩

theorem mono (laid : Laid limit p q ns) (sooner : p' ≤ p) (later : q ≤ q') (further : limit ≤ limit') :
    Laid limit' p' q' ns := by
  refine ⟨(sooner.trans laid.upright).trans later, fun n member c call => ?_, laid.sound, laid.ordered⟩
  obtain ⟨begun, ended, short⟩ := laid.inside n member c call
  exact ⟨sooner.trans begun, ended.trans_le later, short.trans_le further⟩

theorem append (first : Laid limit p m ns) (second : Laid limit m q more) :
    Laid limit p q (ns ++ more) := by
  have before := first.mono le_rfl second.upright le_rfl
  have behind := second.mono first.upright le_rfl le_rfl
  refine ⟨before.upright, ?_, ?_, ?_⟩
  · exact fun n member => (List.mem_append.mp member).elim (before.inside n) (behind.inside n)
  · exact fun n member => (List.mem_append.mp member).elim (before.sound n) (behind.sound n)
  · refine List.pairwise_append.mpr ⟨first.ordered, second.ordered, fun a inA b inB c inC d inD => ?_⟩
    exact (first.inside a inA c inC).2.1.trans_le (second.inside b inB d inD).1

/-- The calls start in front of the limit. -/
theorem toLimit (laid : Laid limit p q ns) (upright : p ≤ limit) : Laid limit p limit ns := by
  refine ⟨upright, fun n member c call => ?_, laid.sound, laid.ordered⟩
  obtain ⟨begun, -, short⟩ := laid.inside n member c call
  exact ⟨begun, short, short⟩

theorem sublist (laid : Laid limit p q ns) (kept : parts.Sublist ns) : Laid limit p q parts :=
  ⟨laid.upright, fun n member => laid.inside n (kept.subset member),
    fun n member => laid.sound n (kept.subset member), laid.ordered.sublist kept⟩

theorem quiet (quiet : n.Quiet) (upright : p ≤ q) : Laid limit p q [n] := by
  refine ⟨upright, ?_, by simpa using quiet.sound, List.pairwise_singleton _ _⟩
  rintro _ member c call
  obtain rfl := List.mem_singleton.mp member
  rw [quiet.silent] at call
  cases call

theorem cons (quiet : n.Quiet) (laid : Laid limit p q ns) : Laid limit p q (n :: ns) :=
  (Laid.quiet quiet le_rfl).append laid

/-- A node is laid where its parts are. -/
theorem made (laid : Laid limit p q parts) (made : n.MadeOf parts) : Laid limit p q [n] := by
  have listed := made.writes.perm
  refine ⟨laid.upright, ?_, ?_, List.pairwise_singleton _ _⟩
  · rintro _ member c call
    obtain rfl := List.mem_singleton.mp member
    rw [made.calls_eq] at call
    obtain ⟨part, below, inside⟩ := List.mem_flatMap.mp call
    exact laid.inside part (listed.mem_iff.mpr below) c inside
  · rintro _ member
    obtain rfl := List.mem_singleton.mp member
    exact made.sound laid.ordered fun part below => laid.sound part (listed.mem_iff.mpr below)

/-- A node that opens a scope holds no calls of the scope around it. -/
theorem scope (upright : p ≤ q) (opened : n.opensScope = true)
    (row : Laid limit m q (n.inner.map stmt)) : Laid limit p q [n] := by
  refine .quiet (quiet_of_scope opened (.scope opened row.ordered fun s member => ?_)) upright
  exact row.sound _ (List.mem_map_of_mem member)

/-- A call is laid from where its callee starts, behind which an opening parenthesis follows, and its
arguments behind that. -/
theorem call {start : Position} {callee : Expr} {arguments : List Expr} {keywords : List Keyword}
    (called : Laid limit start m [expr callee]) (begun : start < m) (short : start < limit)
    (given : Laid limit m q parts)
    (writes : (expr (.call start callee arguments keywords)).Writes (expr callee :: parts)) :
    Laid limit start q [expr (.call start callee arguments keywords)] := by
  have laid := called.append given
  have listed := writes.perm
  have inArguments : ∀ n ∈ arguments.map expr ++ keywords.map keyword, n ∈ parts := fun n member =>
    ((List.perm_cons _).mp listed).mem_iff.mpr member
  have opens : Call.Opens ⟨start, callee, arguments, keywords⟩ := by
    refine ⟨fun d inside => (called.inside _ (by simp) d inside).1, fun n member d inside => ?_⟩
    exact begun.trans_le (given.inside n (inArguments n member) d inside).1
  refine ⟨laid.upright, ?_, ?_, List.pairwise_singleton _ _⟩
  · rintro _ member c call
    obtain rfl := List.mem_singleton.mp member
    rw [calls_eq, if_neg (by simp [opensScope])] at call
    rcases List.mem_append.mp call with here | call
    · obtain rfl : c = ⟨start, callee, arguments, keywords⟩ := by
        simpa [asCall?, Expr.asCall?] using here
      exact ⟨le_rfl, begun.trans_le given.upright, short⟩
    · obtain ⟨part, below, inside⟩ := List.mem_flatMap.mp call
      exact laid.inside part (listed.mem_iff.mpr below) c inside
  · rintro _ member
    obtain rfl := List.mem_singleton.mp member
    refine .node rfl writes laid.ordered ?_ fun part below => laid.sound part (listed.mem_iff.mpr below)
    rintro c ⟨⟩
    exact opens

end Laid

/-! ### Cursors -/

namespace Cursor

variable {limit p : Position} {c d : Cursor} {ns : List Node}

/-- Where the next token starts. -/
def start (c : Cursor) : Position :=
  c.rest.head?.elim .nowhere (·.start)

/-- Whether the tokens still to be read come to an end and are spaced. -/
structure Steady (limit : Position) (c : Cursor) : Prop where
  ended : IsEnded c.rest
  spaced : Spaced limit c.start c.rest

/-- What passing the next token does. -/
theorem Steady.next (steady : c.Steady limit) : c.next.Steady limit ∧ c.start ≤ c.next.start ∧
    ∀ text ∈ c.token.edgeText?,
      advance c.start text ≤ c.next.start ∧ advance c.start text ≤ limit ∧ '\r' ∉ text := by
  obtain ⟨rest, lastLine⟩ := c
  rcases cases_of_ended steady.ended with ⟨x, only, ends⟩ | ⟨x, y, more, several⟩
  · obtain rfl : rest = [x] := only
    refine ⟨steady, le_rfl, ?_⟩
    cases same : x.token <;> simp_all [token, Token.endsText, Token.edgeText?]
  · obtain rfl : rest = x :: y :: more := several
    obtain ⟨-, edge, later⟩ := steady.spaced
    obtain ⟨z, final, ends⟩ := steady.ended
    refine ⟨⟨⟨z, by simpa [next] using final, ends⟩, ⟨le_rfl, later.2⟩⟩, ?_, fun text known => ?_⟩
    · exact x.start_le_limit.trans later.1
    · have ends : x.limit = advance x.start text := by
        rw [Lexeme.limit, show x.token.edgeText? = some text from known, Option.getD_some]
      exact ⟨ends ▸ later.1, ends ▸ edge text known⟩

/-- What has been read is laid in front of a cursor. -/
structure Behind (limit p : Position) (ns : List Node) (c : Cursor) : Prop where
  steady : c.Steady limit
  laid : Laid limit p c.start ns

namespace Behind

theorem next (behind : c.Behind limit p ns) : c.next.Behind limit p ns := by
  obtain ⟨steady, onward, -⟩ := behind.steady.next
  exact ⟨steady, behind.laid.mono le_rfl onward le_rfl⟩

theorem leads (behind : c.Behind limit p ns) (leads : c.Leads d) : d.Behind limit p ns :=
  leads.keeps (fun _ kept => kept.next) behind

/-- What is read so far is made into a node. -/
theorem made {n : Node} (behind : c.Behind limit p ns) (made : n.MadeOf ns) : c.Behind limit p [n] :=
  ⟨behind.steady, behind.laid.made made⟩

/-- Of what is read so far nothing is kept. -/
theorem quiet {n : Node} (behind : c.Behind limit p ns) (quiet : n.Quiet) : c.Behind limit p [n] :=
  ⟨behind.steady, .quiet quiet behind.laid.upright⟩

/-- From the next token on nothing has been read. -/
theorem fresh (behind : c.Behind limit p ns) : c.Behind limit c.start [] :=
  ⟨behind.steady, .nil le_rfl⟩

end Behind

/-- Nothing has been read in front of the first token. -/
theorem behind_of_spaced {xs : List Lexeme} (spaced : Spaced limit p xs) (ended : IsEnded xs)
    (lastLine : ℕ) : Behind limit p [] ⟨xs, lastLine⟩ := by
  cases xs with
  | nil => cases ended.choose_spec.1
  | cons x rest => exact ⟨⟨ended, le_rfl, spaced.2⟩, .nil spaced.1⟩

end Cursor

/-! ### Rules -/

namespace Reading

open Cursor

variable {α β : Type} {limit p : Position} {ns : List Node} {reading : Reading α}
  {next : α → Reading β} {parts : α → List Node} {R : β → Cursor → Prop}

/-- Whether the nodes of what a rule reads are laid between the cursors in front of it and behind. -/
def Reads (reading : Reading α) (parts : α → List Node) : Prop :=
  ∀ limit p, Ensures (Behind limit p []) reading fun a => Behind limit p (parts a)

/-- What is read stands behind what was read before. -/
theorem Reads.append (reads : Reads reading parts) :
    Ensures (Behind limit p ns) reading fun a => Behind limit p (ns ++ parts a) := by
  intro c d a behind success
  have read := reads limit c.start c d a behind.fresh success
  exact ⟨read.steady, behind.laid.append read.laid⟩

/-- A rule is followed by another one. -/
theorem Reads.bind (reads : Reads reading parts)
    (rest : ∀ a, Ensures (Behind limit p (ns ++ parts a)) (next a) R) :
    Ensures (Behind limit p ns) (reading >>= next) R :=
  reads.append.bind rest

/-- A step of which nothing is kept. -/
theorem behind_step (rest : ∀ a, Ensures (Behind limit p ns) (next a) R) :
    Ensures (Behind limit p ns) (reading >>= next) R :=
  Ensures.bind (fun _ _ _ behind success => behind.leads (reading.forward success)) rest

/-- What is made of the nodes read so far is laid where they are. -/
theorem behind_pure {a : α} (made : ∀ q, Laid limit p q ns → Laid limit p q (parts a)) :
    Ensures (Behind limit p ns) (pure a) fun a => Behind limit p (parts a) :=
  ensures_pure fun _ behind => ⟨behind.steady, made _ behind.laid⟩

/-- A rule ends with a node made of those read so far. -/
theorem behind_made {a : α} {node : α → Node} (made : (node a).MadeOf ns) :
    Ensures (Behind limit p ns) (pure a) fun a => Behind limit p [node a] :=
  behind_pure fun _ laid => laid.made made

theorem behind_unwrap {found : Option α}
    (made : ∀ a ∈ found, ∀ q, Laid limit p q ns → Laid limit p q (parts a)) :
    Ensures (Behind limit p ns) (unwrap found) fun a => Behind limit p (parts a) := by
  cases found with
  | none => exact ensures_fail
  | some a => exact behind_pure (made a rfl)

theorem reads_fail : Reads (fail : Reading α) parts :=
  fun _ _ => ensures_fail

theorem Reads.map {f : α → β} {made : β → List Node} (reads : Reads reading parts)
    (same : ∀ {limit p q : Position} (a : α), Laid limit p q (parts a) →
      Laid limit p q (made (f a))) : Reads (f <$> reading) made :=
  fun limit p => (reads limit p).bind fun a => behind_pure fun _ laid => same a laid

/-- Nodes that a step reads as often as it finds one. -/
theorem reads_collect {node : α → Node} {step : Reading (Option α)}
    (reads : Reads step fun found => found.toList.map node) (n : Nat) :
    Reads (collect step n) fun all => all.map node := by
  induction n with
  | zero => exact fun _ _ => behind_pure fun _ laid => laid
  | succ n ih =>
    refine fun _ _ => reads.bind fun found => ?_
    cases found with
    | none => exact behind_pure fun _ laid => laid
    | some a => exact ih.bind fun rest => behind_pure fun _ laid => laid

theorem reads_commaSeparated {more : Token → Bool} (reads : Reads reading parts) (n : Nat) :
    Reads (commaSeparated more reading n) fun items => items.1.flatMap parts := by
  induction n with
  | zero => exact reads_fail
  | succ n ih =>
    refine fun limit p => reads.bind fun first => ?_
    have only (trailing : Bool) : Ensures (Behind limit p ([] ++ parts first))
        (pure ([first], trailing)) fun items => Behind limit p (items.1.flatMap parts) :=
      behind_pure fun _ laid => by simpa using laid
    refine behind_step fun parted => Ensures.ite ?_ (only false)
    refine behind_step fun token => Ensures.ite ?_ (only true)
    exact ih.bind fun items => behind_pure fun _ laid => laid

/-- Nodes parted by commas. -/
theorem reads_commaSeparated_map {more : Token → Bool} {node : α → Node}
    (reads : Reads reading fun a => [node a]) (n : Nat) :
    Reads (commaSeparated more reading n) fun items => items.1.map node := by
  have all : Reads (commaSeparated more reading n) fun items =>
      items.1.flatMap fun a => [node a] := reads_commaSeparated reads n
  simpa only [List.map_eq_flatMap] using all

end Reading

end ProbeWeave.Syntax
