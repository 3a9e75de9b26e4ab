import ProbeWeave.Outcome
import ProbeWeave.Proofs.Syntax.Laid
import ProbeWeave.Syntax.Grammar.Expression

/-! # Expressions are read in the order of the text

Rule by rule, the calls of what is read start between the cursor in front and the cursor behind, and
lie as written. The argument is an induction on the depth of nesting, which is also the depth of the
fields of formatted texts.
-/

namespace ProbeWeave.Syntax

open Lexer Node Reading Cursor

namespace Inner

variable {inner : Inner} {limit p q : Position}

/-- Whether a rule reads an expression whose calls lie as written. -/
abbrev ReadsOne (rule : Reading Expr) : Prop :=
  Reads rule fun e => [expr e]

/-- What the rules further in have to be for those made of them to read calls in order. -/
structure InOrder (inner : Inner) : Prop where
  expression : ReadsOne inner.expression
  factor : ReadsOne inner.factor
  field : ∀ {brace : Position} {source : List Char} {e : Expr}, '\r' ∉ source →
    inner.field (advance brace ['\x7b']) source = .ok e →
      Laid (advance (advance brace ['\x7b']) source) brace (advance (advance brace ['\x7b']) source)
        [expr e]

/-! ### Formatted texts -/

/-- Parts of a formatted text, in reverse order, laid in a stretch of text. -/
abbrev LaidParts (p q : Position) (parts : List Expr) : Prop :=
  Laid q p q (parts.reverse.map expr)

theorem LaidParts.push {m : Position} {parts : List Expr} {e : Expr} (laid : LaidParts p m parts)
    (next : Laid q m q [expr e]) : LaidParts p q (e :: parts) := by
  have all := (laid.mono le_rfl le_rfl next.upright).append next
  rw [LaidParts, List.reverse_cons, List.map_append]
  exact all

theorem LaidParts.pushPoints {parts : List Expr} (laid : LaidParts p q parts) (mark : Bool)
    (points : List Nat) : LaidParts p q (pushPoints mark points parts) := by
  unfold Inner.pushPoints
  split
  · exact laid
  · split
    · rename_i before _ rest
      have rest : LaidParts p q rest :=
        laid.sublist (((List.sublist_cons_self _ rest).reverse).map expr)
      exact rest.push (.quiet (quiet_constant _) le_rfl)
    · exact laid.push (.quiet (quiet_constant _) le_rfl)

/-- The reader of formats at a depth of nesting. -/
def specification (inner : Inner) (mark : Bool) :
    ℕ → List Literal.Piece → Except Failure (Option Expr)
  | 0, _ => pure none
  | depth + 1, pieces => do return some (.joined (← inner.joinPieces mark depth pieces []).reverse)

theorem joinPieces_cons (mark : Bool) (depth : ℕ) (piece : Literal.Piece)
    (rest : List Literal.Piece) (parts : List Expr) :
    inner.joinPieces mark depth (piece :: rest) parts = (do
      inner.joinPieces mark depth rest
        (← inner.pushPiece mark (specification inner mark depth) parts piece)) := by
  cases depth <;> rfl

theorem laid_joinPieces (ordered : inner.InOrder) {mark : Bool} {m : Position}
    {pieces : List Literal.Piece} (inside : Literal.PiecesIn m q pieces) (depth : ℕ)
    {parts found : List Expr} (laid : LaidParts p m parts)
    (joined : inner.joinPieces mark depth pieces parts = .ok found) : LaidParts p q found := by
  -- the pieces of a format are pieces inside, so one induction covers the formats of formats
  induction inside generalizing depth p parts found with
  | nil upright =>
    obtain rfl : parts = found := by
      cases depth <;> exact Outcome.pure_eq_ok.mp joined
    exact laid.mono le_rfl upright upright
  | literal points _ ih =>
    rw [joinPieces_cons] at joined
    exact ih depth (laid.pushPoints mark points) joined
  | @plain m q brace source conversion pieces begun unified _ ih =>
    rw [joinPieces_cons] at joined
    obtain ⟨pushed, first, joined⟩ := Outcome.bind_eq_ok.mp joined
    obtain ⟨value, read, first⟩ := Outcome.bind_eq_ok.mp first
    cases first
    refine ih depth (laid.push ?_) joined
    have field := (ordered.field unified read).mono begun le_rfl le_rfl
    exact field.made ⟨rfl, rfl, rfl⟩
  | @formatted m k q brace source conversion format pieces begun unified inside _ formatIh restIh =>
    rw [joinPieces_cons] at joined
    obtain ⟨pushed, first, joined⟩ := Outcome.bind_eq_ok.mp joined
    obtain ⟨value, read, first⟩ := Outcome.bind_eq_ok.mp first
    obtain ⟨specified, formatRead, first⟩ := Outcome.bind_eq_ok.mp first
    cases first
    refine restIh depth (laid.push ?_) joined
    have field := (ordered.field unified read).mono begun le_rfl le_rfl
    have upright := inside.upright
    cases depth with
    | zero =>
      obtain rfl := Outcome.pure_eq_ok.mp formatRead
      exact (field.mono le_rfl upright upright).made ⟨rfl, rfl, rfl⟩
    | succ depth =>
      obtain ⟨reversed, joinedFormat, same⟩ := Outcome.bind_eq_ok.mp formatRead
      obtain rfl := Outcome.pure_eq_ok.mp same
      have laidFormat : LaidParts _ k reversed := formatIh depth (.nil le_rfl) joinedFormat
      have joinedNode : Laid k _ k [expr (.joined reversed.reverse)] := laidFormat.made ⟨rfl, rfl, rfl⟩
      have both := (field.mono le_rfl le_rfl upright).append joinedNode
      exact both.made ⟨rfl, rfl, rfl⟩

theorem laid_joinContents (ordered : inner.InOrder) {mark : Bool}
    {contents : List Literal.Content} {e : Expr}
    (inside : Literal.PiecesIn p q (contents.flatMap Literal.Content.pieces))
    (joined : inner.joinContents mark contents = .ok e) : Laid q p q [expr e] := by
  unfold joinContents at joined
  dsimp only at joined
  split at joined
  · cases joined
    exact .quiet (quiet_constant _) inside.upright
  · obtain ⟨parts, read, joined⟩ := Outcome.bind_eq_ok.mp joined
    have laid : LaidParts p q parts := laid_joinPieces ordered inside 3 (.nil le_rfl) read
    split at joined
    · cases joined
      exact laid.made ⟨rfl, rfl, rfl⟩
    · split at joined
      · cases joined
        exact laid
      · cases joined
        exact .quiet (quiet_constant _) inside.upright

/-- The next literal holds its pieces. -/
theorem ensures_next (p : Position) : Ensures (Behind limit p []) strings.next fun found d =>
    d.Steady limit ∧ ∀ content ∈ found, ∃ q, q ≤ d.start ∧ q ≤ limit ∧
      Literal.PiecesIn p q content.pieces := by
  refine Ensures.peek fun token => ?_
  split
  · rename_i literal
    rintro c d found ⟨behind, known⟩ success
    obtain ⟨position, e, placed, success⟩ := run_bind.mp success
    cases placed
    obtain ⟨content, e, unwrapped, success⟩ := run_bind.mp success
    generalize whole : Literal.content _ literal = read at unwrapped
    cases read with
    | none => cases unwrapped
    | some content =>
      cases unwrapped
      cases success
      obtain ⟨steady, -, edge⟩ := behind.steady.next
      obtain ⟨onward, inside, unified⟩ := edge literal (by rw [known]; rfl)
      refine ⟨steady, ?_⟩
      rintro _ ⟨⟩
      exact ⟨_, onward, inside, (Literal.content_pieces whole unified).mono behind.laid.upright⟩
  · exact ensures_pure fun c known => ⟨known.1.steady, nofun⟩

/-- Literals that follow one another hold their pieces one behind the other. -/
theorem ensures_collect_next (n : ℕ) (p : Position) :
    Ensures (Behind limit p []) (collect strings.next n) fun contents d =>
      d.Steady limit ∧ ∃ q, q ≤ d.start ∧ (contents = [] ∨ q ≤ limit) ∧
        Literal.PiecesIn p q (contents.flatMap Literal.Content.pieces) := by
  induction n generalizing p with
  | zero =>
    exact ensures_pure fun c behind =>
      ⟨behind.steady, p, behind.laid.upright, .inl rfl, .nil le_rfl⟩
  | succ n ih =>
    intro c d contents behind success
    obtain ⟨found, e, read, success⟩ := run_bind.mp success
    obtain ⟨steady, held⟩ := ensures_next p c e found behind read
    cases found with
    | none =>
      obtain ⟨rfl, rfl⟩ := run_pure.mp success
      have onward := (behind.leads (strings.next.forward read)).laid.upright
      exact ⟨steady, p, onward, .inl rfl, .nil le_rfl⟩
    | some content =>
      obtain ⟨m, onward, inside, first⟩ := held content rfl
      obtain ⟨rest, e', others, success⟩ := run_bind.mp success
      obtain ⟨rfl, rfl⟩ := run_pure.mp success
      obtain ⟨further, q, reached, last, later⟩ := ih m e e' rest ⟨steady, .nil onward⟩ others
      refine ⟨further, ?_⟩
      -- a rest without literals has no limit of its own: the literal in front bounds the run
      rcases last with rfl | last
      · have further' := (Behind.leads ⟨steady, .nil onward⟩ (Reading.forward _ others)).laid.upright
        exact ⟨m, further', .inr inside, by simpa using first⟩
      · exact ⟨q, reached, .inr last, first.append later⟩

theorem reads_strings (ordered : inner.InOrder) : ReadsOne inner.strings := by
  refine fun limit p => behind_step fun position => behind_step fun first =>
    (ensures_collect_next _ p).bind fun contents => ?_
  extract_lets joined
  refine Ensures.ite ?_ ?_
  · intro c d e _ success
    obtain ⟨_, _, failed, _⟩ := run_bind.mp success
    cases failed
  · simp only [joined]
    split
    · rename_i e read
      refine ensures_pure fun c known => ?_
      obtain ⟨steady, q, reached, last, inside⟩ := known
      refine ⟨steady, ?_⟩
      rcases last with rfl | last
      · cases read
        exact .quiet (quiet_constant _) (inside.upright.trans reached)
      · exact (laid_joinContents ordered inside read).mono le_rfl reached last
    · intro c d e _ failed
      cases failed

/-! ### Targets -/

/-- Whether nodes hold the same calls, and one lies as written if the other one does. -/
structure Like (a b : Node) : Prop where
  calls : b.calls = a.calls
  sound : a.Sound → b.Sound

theorem map_calls_of_like {as bs : List Node} (alike : List.Forall₂ Like as bs) :
    bs.map Node.calls = as.map Node.calls := by
  induction alike with
  | nil => rfl
  | cons here _ ih => rw [List.map_cons, List.map_cons, here.calls, ih]

theorem sound_of_like {as bs : List Node} (alike : List.Forall₂ Like as bs)
    (sound : ∀ a ∈ as, a.Sound) : ∀ b ∈ bs, b.Sound := by
  induction alike with
  | nil => exact sound
  | cons here _ ih =>
    obtain ⟨first, others⟩ := List.forall_mem_cons.mp sound
    exact List.forall_mem_cons.mpr ⟨here.sound first, ih others⟩

theorem pairwise_inFront_iff (ns : List Node) : ns.Pairwise InFront ↔
    (ns.map Node.calls).Pairwise fun cs ds => ∀ c ∈ cs, ∀ d ∈ ds, c.start < d.start := by
  rw [List.pairwise_map]
  rfl

/-- Nodes whose parts are alike. -/
theorem Like.of_parts {a b : Node} (flat : a.opensScope = false ∧ b.opensScope = false)
    (plain : a.asCall? = none ∧ b.asCall? = none)
    (writes : ∀ parts, a.Writes parts → parts = a.children) (writes' : b.Writes b.children)
    (alike : List.Forall₂ Like a.children b.children) : Like a b := by
  have same := map_calls_of_like alike
  refine ⟨?_, fun sound => ?_⟩
  · rw [calls_of_plain flat.1 plain.1, calls_of_plain flat.2 plain.2, List.flatMap_def,
      List.flatMap_def, same]
  · cases sound with
    | node _ written ordered _ below =>
      obtain rfl := writes _ written
      refine .node flat.2 writes' ?_ (by simp [plain.2]) (sound_of_like alike below)
      rwa [pairwise_inFront_iff, same, ← pairwise_inFront_iff]
    | scope opened => simp [flat.1] at opened

theorem Like.refl (n : Node) : Like n n :=
  ⟨rfl, id⟩

/-- A node around another one. -/
theorem Like.around {a b : Node} (made : b.MadeOf [a]) : Like a b := by
  have alone : b.children = [a] := List.singleton_perm.mp made.writes.perm |>.symm
  refine ⟨by simp [made.calls_eq, alone], fun sound => ?_⟩
  exact made.sound (List.pairwise_singleton _ _) (by simpa [alone] using sound)

theorem like_toTargets {use : NameUse} {starring : Bool} {es ts : List Expr}
    (each : ∀ e ∈ es, ∀ t, e.toTarget? use starring = some t → Like (expr e) (expr t))
    (read : Expr.toTargets? use starring es = some ts) :
    List.Forall₂ Like (es.map expr) (ts.map expr) := by
  induction es generalizing ts with
  | nil =>
    cases read
    exact .nil
  | cons e rest ih =>
    obtain ⟨here, others⟩ := List.forall_mem_cons.mp each
    rw [Expr.toTargets?] at read
    obtain ⟨target, first, read⟩ := Option.bind_eq_some_iff.mp read
    obtain ⟨targets, later, same⟩ := Option.bind_eq_some_iff.mp read
    cases same
    exact .cons (here target first) (ih others later)

theorem like_toSingleTarget {use : NameUse} {e t : Expr} (read : e.toSingleTarget? use = some t) :
    Like (expr e) (expr t) := by
  unfold Expr.toSingleTarget? at read
  split at read
  · cases read
    exact .of_parts ⟨rfl, rfl⟩ ⟨rfl, rfl⟩ (fun _ writes => writes) rfl .nil
  · cases read
    exact .refl _
  · cases read
    exact .refl _
  · cases read

/-- A target holds the calls of the expression that it is made of. -/
theorem like_toTarget {use : NameUse} {starring : Bool} (e : Expr) {t : Expr}
    (read : e.toTarget? use starring = some t) : Like (expr e) (expr t) := by
  unfold Expr.toTarget? at read
  split at read
  · rename_i value
    split at read
    · obtain ⟨target, found, rfl⟩ := Option.map_eq_some_iff.mp read
      exact .of_parts ⟨rfl, rfl⟩ ⟨rfl, rfl⟩ (fun _ writes => writes) rfl
        (.cons (like_toTarget value found) .nil)
    · cases read
  · rename_i elements
    obtain ⟨targets, found, rfl⟩ := Option.map_eq_some_iff.mp read
    exact .of_parts ⟨rfl, rfl⟩ ⟨rfl, rfl⟩ (fun _ writes => writes) rfl
      (like_toTargets (fun e _ _ read => like_toTarget e read) found)
  · rename_i elements
    obtain ⟨targets, found, rfl⟩ := Option.map_eq_some_iff.mp read
    exact .of_parts ⟨rfl, rfl⟩ ⟨rfl, rfl⟩ (fun _ writes => writes) rfl
      (like_toTargets (fun e _ _ read => like_toTarget e read) found)
  · exact like_toSingleTarget read
termination_by sizeOf e
decreasing_by
  all_goals
    subst_vars
    simp only [Expr.starred.sizeOf_spec, Expr.list.sizeOf_spec, Expr.tuple.sizeOf_spec]
    grind [→ List.sizeOf_lt_of_mem]

/-- A node alike is laid where the last one is. -/
theorem laid_like {ns : List Node} {a b : Node} (laid : Laid limit p q (ns ++ [a]))
    (like : Like a b) : Laid limit p q (ns ++ [b]) := by
  have same : (ns ++ [b]).map Node.calls = (ns ++ [a]).map Node.calls := by
    simp [like.calls]
  refine ⟨laid.upright, ?_, ?_, ?_⟩
  · have inside := laid.inside
    simp only [List.mem_append, List.mem_singleton] at inside ⊢
    rintro n (member | rfl)
    · exact inside n (.inl member)
    · exact like.calls ▸ inside a (.inr rfl)
  · have sound := laid.sound
    simp only [List.mem_append, List.mem_singleton] at sound ⊢
    rintro n (member | rfl)
    · exact sound n (.inl member)
    · exact like.sound (sound a (.inr rfl))
  · rw [pairwise_inFront_iff, same, ← pairwise_inFront_iff]
    exact laid.ordered

/-! ### Operators -/

theorem reads_namedExpression (ordered : inner.InOrder) : ReadsOne inner.namedExpression := by
  refine fun limit p => behind_step fun binds => Ensures.ite ?_ (ordered.expression limit p)
  refine behind_step fun id => behind_step fun _ => ordered.expression.bind fun value => ?_
  exact behind_pure fun _ laid => (laid.cons (quiet_name id .store)).made ⟨rfl, rfl, rfl⟩

theorem reads_leftChain {link : Token → Option BinaryOp} {operand : Reading Expr}
    (reads : ReadsOne operand) : ReadsOne (inner.leftChain link operand) := by
  have extend {limit p : Position} (n : ℕ) (left : Expr) :
      Ensures (Behind limit p [expr left]) (leftChain.extend link operand n left) fun e =>
        Behind limit p [expr e] := by
    induction n generalizing left with
    | zero => exact behind_pure fun _ laid => laid
    | succ n ih =>
      refine behind_step fun token => ?_
      split
      · refine behind_step fun _ => reads.bind fun right => ?_
        exact (ih _).of fun c behind => behind.made ⟨rfl, rfl, rfl⟩
      · exact behind_pure fun _ laid => laid
  exact fun limit p => reads.bind fun left => extend inner.bound left

theorem reads_bitOr (ordered : inner.InOrder) : ReadsOne inner.bitOr := by
  unfold bitOr
  repeat apply reads_leftChain
  exact ordered.factor

theorem reads_link {operand : Reading Expr} (reads : ReadsOne operand) :
    Reads (comparison.link operand) fun found => found.toList.map fun link => expr link.2 := by
  refine fun limit p => behind_step fun op => ?_
  split
  · exact reads.bind fun right => behind_pure fun _ laid => laid
  · exact behind_pure fun _ laid => laid

theorem reads_comparison (ordered : inner.InOrder) : ReadsOne inner.comparison := by
  refine fun limit p => (reads_bitOr ordered).bind fun left =>
    (reads_collect (reads_link (reads_bitOr ordered)) _).bind fun links => Ensures.ite ?_ ?_
  · exact behind_pure fun _ laid => laid.sublist (List.sublist_append_left _ _)
  · exact behind_made ⟨rfl, by simp [Writes, children, Expr.children], rfl⟩

theorem reads_inversion (ordered : inner.InOrder) : ReadsOne inner.inversion := by
  refine fun limit p => behind_step fun negations => (reads_comparison ordered).bind fun operand => ?_
  refine behind_pure fun q laid => ?_
  induction negations generalizing operand with
  | nil => exact laid
  | cons _ rest ih => exact ih _ (laid.made ⟨rfl, rfl, rfl⟩)

theorem reads_some {rule : Reading Expr} (reads : ReadsOne rule) :
    Reads (some <$> rule) fun found => found.toList.map expr :=
  reads.map fun _ laid => laid

/-- An expression that is read or not in front of what follows. -/
theorem behind_optional {β : Type} {rule : Reading Expr} (reads : ReadsOne rule) {b : Bool}
    {parts : List Node} {next : Option Expr → Reading β} {R : β → Cursor → Prop}
    (rest : ∀ found : Option Expr,
      Ensures (Behind limit p (parts ++ found.toList.map expr)) (next found) R) :
    Ensures (Behind limit p parts)
      (if b = true then some <$> rule >>= next else pure none >>= next) R := by
  refine Ensures.ite ((reads_some reads).bind rest) ?_
  have none := rest none
  rw [Option.toList_none, List.map_nil, List.append_nil] at none
  exact none

/-- An expression that a keyword announces, if it does. -/
theorem reads_announced {word : String} {rule : Reading Expr} (reads : ReadsOne rule) :
    Reads (do if ← takeKeyword word then some <$> rule else return none) fun found =>
      found.toList.map expr := by
  refine fun limit p => behind_step fun announced => ?_
  exact Ensures.ite (reads_some reads limit p) (behind_pure fun _ laid => laid)

theorem reads_booleanRun {word : String} {op : BoolOp} {operand : Reading Expr}
    (reads : ReadsOne operand) : ReadsOne (inner.booleanRun word op operand) := by
  refine fun limit p => reads.bind fun first =>
    (reads_collect (reads_announced reads) _).bind fun rest => Ensures.ite ?_ ?_
  · exact behind_pure fun _ laid => laid.sublist (List.sublist_append_left _ _)
  · exact behind_made ⟨rfl, rfl, rfl⟩

theorem reads_disjunction (ordered : inner.InOrder) : ReadsOne inner.disjunction :=
  reads_booleanRun (reads_booleanRun (reads_inversion ordered))

theorem reads_starExpression (ordered : inner.InOrder) : ReadsOne inner.starExpression := by
  refine fun limit p => behind_step fun starred => Ensures.ite ?_ (ordered.expression limit p)
  exact (reads_bitOr ordered).bind fun e => behind_made ⟨rfl, rfl, rfl⟩

theorem reads_starNamedExpression (ordered : inner.InOrder) :
    ReadsOne inner.starNamedExpression := by
  refine fun limit p => behind_step fun starred =>
    Ensures.ite ?_ (reads_namedExpression ordered limit p)
  exact (reads_bitOr ordered).bind fun e => behind_made ⟨rfl, rfl, rfl⟩

/-- Items parted by commas make a tuple, or one stands alone. -/
theorem reads_tuple {more : Token → Bool} {item : Reading Expr} (reads : ReadsOne item) (n : ℕ) :
    ReadsOne (do
      let (items, trailing) ← commaSeparated more item n
      match items, trailing with
      | [item], false => return item
      | items, _ => return .tuple items) := by
  refine fun limit p => (reads_commaSeparated_map reads n).bind fun found => ?_
  obtain ⟨items, trailing⟩ := found
  dsimp only
  split
  · exact behind_pure fun _ laid => laid
  · exact behind_made ⟨rfl, rfl, rfl⟩

theorem reads_starExpressions (ordered : inner.InOrder) : ReadsOne inner.starExpressions :=
  reads_tuple (reads_starExpression ordered) _

theorem reads_yieldExpression (ordered : inner.InOrder) : ReadsOne inner.yieldExpression := by
  refine fun limit p => behind_step fun _ => behind_step fun delegates => Ensures.ite ?_ ?_
  · exact ordered.expression.bind fun e => behind_made ⟨rfl, rfl, rfl⟩
  · refine behind_step fun token => Ensures.ite ?_ ?_
    · exact (reads_starExpressions ordered).bind fun e => behind_made ⟨rfl, rfl, rfl⟩
    · exact behind_made ⟨rfl, rfl, rfl⟩

theorem reads_yieldOrStarExpressions (ordered : inner.InOrder) :
    ReadsOne inner.yieldOrStarExpressions :=
  fun limit p => behind_step fun _ =>
    Ensures.ite (reads_yieldExpression ordered limit p) (reads_starExpressions ordered limit p)

theorem behind_target {use : NameUse} {starring : Bool} (parts : List Node) (e : Expr) :
    Ensures (Behind limit p (parts ++ [expr e])) (unwrap (e.toTarget? use starring)) fun t =>
      Behind limit p (parts ++ [expr t]) :=
  behind_unwrap fun _ found _ laid => laid_like laid (like_toTarget e found)

/-- An expression around the one that a rule reads. -/
theorem reads_around {f : Expr → Expr} {rule : Reading Expr} (reads : ReadsOne rule)
    (made : ∀ e, (expr (f e)).MadeOf [expr e]) : ReadsOne (f <$> rule) :=
  reads.map fun e laid => laid.made (made e)

theorem reads_starred (ordered : inner.InOrder) : ReadsOne (.starred <$> inner.bitOr) :=
  reads_around (reads_bitOr ordered) fun _ => ⟨rfl, rfl, rfl⟩

theorem reads_loopTarget (ordered : inner.InOrder) : ReadsOne inner.loopTarget := by
  refine reads_tuple (fun limit p => behind_step fun starred => ?_) _
  extract_lets target
  have targeted (e : Expr) : Ensures (Behind limit p [expr e]) (target e) fun t =>
      Behind limit p [expr t] := behind_target [] e
  exact Ensures.ite ((reads_starred ordered).bind targeted) ((reads_bitOr ordered).bind targeted)

/-! ### Comprehensions -/

theorem reads_clause (ordered : inner.InOrder) :
    Reads inner.clause fun found => found.toList.map Node.clause := by
  refine fun limit p => behind_step fun follows => Ensures.ite (behind_pure fun _ laid => laid) ?_
  refine behind_step fun isAsync => behind_step fun _ => ?_
  refine (reads_loopTarget ordered).bind fun target => ?_
  refine behind_step fun _ => (reads_disjunction ordered).bind fun source => ?_
  refine (reads_collect (reads_announced (reads_disjunction ordered)) _).bind fun conditions => ?_
  exact behind_pure fun _ laid => laid.made ⟨rfl, rfl, rfl⟩

theorem reads_clauses (ordered : inner.InOrder) :
    Reads inner.clauses fun found => found.map Node.clause :=
  reads_collect (reads_clause ordered) _

/-! ### Calls and subscripts -/

/-- Whether nodes are the arguments read so far, as they are written. -/
structure Given (read : ArgumentsRead) (parts : List Node) : Prop where
  perm : parts.Perm (read.arguments.map expr ++ read.keywords.map keyword)
  positions : (read.arguments.map expr).Sublist parts
  names : (read.keywords.map keyword).Sublist parts

namespace Given

variable {read : ArgumentsRead} {parts : List Node}

theorem nil : Given {} [] :=
  ⟨.refl _, .refl _, .refl _⟩

theorem argument (given : Given read parts) (e : Expr) :
    Given { read with arguments := read.arguments ++ [e] } (parts ++ [expr e]) := by
  refine ⟨?_, ?_, given.names.trans (List.sublist_append_left _ _)⟩
  · simp only [List.map_append, List.map_cons, List.map_nil, List.append_assoc, List.singleton_append]
    exact ((given.perm.append_right _).trans (by simp)).trans
      (List.perm_append_left_iff _ |>.mpr (List.perm_append_singleton _ _))
  · simpa using given.positions.append (List.Sublist.refl [expr e])

theorem keyword (given : Given read parts) (k : Keyword) (unpacked : Bool) :
    Given ⟨read.arguments, read.keywords ++ [k], unpacked⟩ (parts ++ [.keyword k]) := by
  refine ⟨?_, given.positions.trans (List.sublist_append_left _ _), ?_⟩
  · simpa using given.perm.append_right [.keyword k]
  · simpa using given.names.append (List.Sublist.refl [Node.keyword k])

end Given

/-- The arguments read so far are laid in front of a cursor. -/
def Gathered (limit p : Position) (read : ArgumentsRead) (c : Cursor) : Prop :=
  ∃ parts, Given read parts ∧ c.Behind limit p parts

theorem ensures_argument (ordered : inner.InOrder) (read : ArgumentsRead) :
    Ensures (Gathered limit p read) (inner.argument read) (Gathered limit p) := by
  rintro c d found ⟨parts, given, behind⟩ success
  suffices Ensures (Behind limit p parts) (inner.argument read) (Gathered limit p) from
    this c d found behind success
  have position {a : Node} {e : Expr} (like : Like a (expr e)) :
      Ensures (Behind limit p (parts ++ [a]))
        (pure { read with arguments := read.arguments ++ [e] }) (Gathered limit p) :=
    ensures_pure fun c behind => ⟨_, given.argument e, behind.steady, laid_like behind.laid like⟩
  have name {e : Expr} (id : Option String) (unpacked : Bool) :
      Ensures (Behind limit p (parts ++ [expr e]))
        (pure { read with keywords := read.keywords ++ [.mk id e], unpacked }) (Gathered limit p) :=
    ensures_pure fun c behind => ⟨_, given.keyword (.mk id e) unpacked, behind.steady,
      laid_like behind.laid (.around ⟨rfl, rfl, rfl⟩)⟩
  refine behind_step fun token => behind_step fun second => ?_
  split
  · exact behind_step fun _ => ordered.expression.bind fun e => name none true
  · refine Ensures.ite ensures_fail_bind (behind_step fun _ => ordered.expression.bind fun e => ?_)
    exact position (.around ⟨rfl, rfl, rfl⟩)
  · exact behind_step fun _ => behind_step fun _ => ordered.expression.bind fun e => name _ _
  · refine Ensures.ite ensures_fail_bind ((reads_namedExpression ordered).bind fun e => ?_)
    exact position (.refl _)

/-- A step of which nothing is kept. -/
theorem gathered_step {α β : Type} {read : ArgumentsRead} {reading : Reading α}
    {next : α → Reading β} {R : β → Cursor → Prop}
    (rest : ∀ a, Ensures (Gathered limit p read) (next a) R) :
    Ensures (Gathered limit p read) (reading >>= next) R :=
  Ensures.bind (fun _ _ _ ⟨parts, given, behind⟩ success =>
    ⟨parts, given, behind.leads (reading.forward success)⟩) rest

theorem ensures_arguments (ordered : inner.InOrder) (read : ArgumentsRead) (n : ℕ) :
    Ensures (Gathered limit p read) (inner.arguments read n) (Gathered limit p) := by
  induction n generalizing read with
  | zero => exact ensures_fail
  | succ n ih =>
    have done (read : ArgumentsRead) :
        Ensures (Gathered limit p read) (pure read) (Gathered limit p) :=
      ensures_pure fun _ gathered => gathered
    refine gathered_step fun closed => Ensures.ite (done read) ?_
    refine (ensures_argument ordered read).bind fun read => gathered_step fun parted => ?_
    exact Ensures.ite (ih read) (gathered_step fun _ => done read)

theorem ensures_callArguments (ordered : inner.InOrder) :
    Ensures (Behind limit p []) inner.callArguments (Gathered limit p) := by
  refine behind_step fun closed => Ensures.ite ?_ ?_
  · exact ensures_pure fun _ behind => ⟨[], .nil, behind⟩
  · have first : Ensures (Behind limit p []) (inner.argument {}) (Gathered limit p) :=
      fun c d read behind => ensures_argument ordered {} c d read ⟨[], .nil, behind⟩
    refine first.bind fun read => ?_
    extract_lets alone
    have only : ∀ e ∈ alone, read.arguments = [e] ∧ read.keywords = [] := by grind
    clear_value alone
    refine gathered_step fun follows => ?_
    split
    · rename_i element
      rintro c d found ⟨parts, given, behind⟩ success
      obtain ⟨arguments, keywords⟩ := only element rfl
      obtain rfl : parts = [expr element] := by simpa [arguments, keywords] using given.perm
      have generator : Ensures (Behind limit p [expr element]) (do
          let clauses ← inner.clauses
          expectOperator ")"
          return { arguments := [.generator element clauses] }) (Gathered limit p) :=
        (reads_clauses ordered).bind fun clauses => behind_step fun _ =>
          ensures_pure fun c behind => ⟨_, Given.nil.argument _, behind.made ⟨rfl, rfl, rfl⟩⟩
      exact generator c d found behind success
    · refine gathered_step fun parted => Ensures.ite (ensures_arguments ordered read _) ?_
      exact gathered_step fun _ => ensures_pure fun _ gathered => gathered

/-- An optional bound of a slice. -/
theorem reads_bound (ordered : inner.InOrder) :
    Reads (subscriptEntry.bound inner) fun found => found.toList.map expr := by
  refine fun limit p => behind_step fun token => Ensures.ite ?_ (behind_pure fun _ laid => laid)
  exact ordered.expression.bind fun e => behind_pure fun _ laid => laid

theorem reads_subscriptEntry (ordered : inner.InOrder) : ReadsOne inner.subscriptEntry := by
  refine fun limit p => behind_step fun starred => Ensures.ite ?_ ?_
  · exact ordered.expression.bind fun e => behind_made ⟨rfl, rfl, rfl⟩
  refine behind_step fun binds => Ensures.ite (reads_namedExpression ordered limit p) ?_
  extract_lets slice
  have sliced (lower : Option Expr) : Ensures (Behind limit p (lower.toList.map expr))
      (slice lower) fun e => Behind limit p [expr e] := by
    refine behind_step fun colon => Ensures.ite ?_ ?_
    · refine (reads_bound ordered).bind fun upper => behind_step fun more => Ensures.ite ?_ ?_
      · refine (reads_bound ordered).bind fun step => behind_pure fun _ laid => ?_
        exact laid.made ⟨rfl, by simp [Writes, children, Expr.children], rfl⟩
      · refine behind_pure fun _ laid => ?_
        exact laid.made ⟨rfl, by simp [Writes, children, Expr.children], rfl⟩
    · exact behind_unwrap fun e found _ laid => by simpa [Option.mem_def.mp found] using laid
  exact behind_step fun colon => Ensures.ite (sliced none)
    ((reads_some ordered.expression).bind fun lower => sliced lower)

theorem reads_subscriptIndex (ordered : inner.InOrder) : ReadsOne inner.subscriptIndex := by
  refine fun limit p => (reads_commaSeparated_map (reads_subscriptEntry ordered) _).bind fun found => ?_
  obtain ⟨entries, trailing⟩ := found
  refine behind_step fun _ => ?_
  dsimp only
  split
  · exact behind_made ⟨rfl, rfl, rfl⟩
  · exact behind_pure fun _ laid => laid
  · exact behind_made ⟨rfl, rfl, rfl⟩

/-! ### Atoms -/

/-- A comprehension of what is read so far, up to a closing bracket. -/
theorem behind_comprehension (ordered : inner.InOrder) {close : String} {parts : List Node}
    {e : List Clause → Expr}
    (made : ∀ clauses, (expr (e clauses)).MadeOf (parts ++ clauses.map Node.clause)) :
    Ensures (Behind limit p parts) (do
      let clauses ← inner.clauses
      expectOperator close
      return e clauses) fun e => Behind limit p [expr e] :=
  (reads_clauses ordered).bind fun clauses => behind_step fun _ => behind_pure fun _ laid =>
    laid.made (made clauses)

/-- Items behind a first one, up to a closing bracket. -/
theorem behind_items {α : Type} {item : Reading α} {parts : α → List Node} (reads : Reads item parts)
    {close : String} {e : List α → Expr} (made : ∀ items, (expr (e items)).MadeOf (items.flatMap parts))
    (first : α) (n : ℕ) :
    Ensures (Behind limit p (parts first)) (do
      if ← takeOperator close then return e [first]
      let (rest, _) ← commaSeparated (· != .operator close) item n
      expectOperator close
      return e (first :: rest)) fun e => Behind limit p [expr e] := by
  refine behind_step fun alone => Ensures.ite (behind_pure fun _ laid => ?_) ?_
  · exact laid.made (by simpa using made [first])
  · refine (reads_commaSeparated reads n).bind fun found => behind_step fun _ => ?_
    exact behind_pure fun _ laid => laid.made (made (first :: found.1))

theorem reads_parenthesized (ordered : inner.InOrder) : ReadsOne inner.parenthesized := by
  refine fun limit p => behind_step fun empty => Ensures.ite ?_ ?_
  · exact behind_made ⟨rfl, rfl, rfl⟩
  refine behind_step fun yields => Ensures.ite ?_ ?_
  · exact (reads_yieldExpression ordered).bind fun e => behind_step fun _ =>
      behind_pure fun _ laid => laid
  refine (reads_starNamedExpression ordered).bind fun first => behind_step fun follows => ?_
  refine Ensures.ite (behind_comprehension ordered fun _ => ⟨rfl, rfl, rfl⟩) ?_
  refine behind_step fun parted => Ensures.ite ?_ ?_
  · exact behind_items (e := .tuple) (reads_starNamedExpression ordered)
      (fun _ => ⟨rfl, List.map_eq_flatMap.symm, rfl⟩) first _
  · exact Ensures.ite ensures_fail_bind (behind_step fun _ => behind_pure fun _ laid => laid)

theorem reads_bracketed (ordered : inner.InOrder) : ReadsOne inner.bracketed := by
  refine fun limit p => behind_step fun empty => Ensures.ite ?_ ?_
  · exact behind_made ⟨rfl, rfl, rfl⟩
  refine (reads_starNamedExpression ordered).bind fun first => behind_step fun follows => ?_
  refine Ensures.ite (behind_comprehension ordered fun _ => ⟨rfl, rfl, rfl⟩) ?_
  refine behind_step fun parted => Ensures.ite ?_ ?_
  · exact behind_items (e := .list) (reads_starNamedExpression ordered)
      (fun _ => ⟨rfl, List.map_eq_flatMap.symm, rfl⟩) first _
  · exact behind_step fun _ => behind_made ⟨rfl, rfl, rfl⟩

/-- The parts of an entry of a dictionary. -/
abbrev itemParts (item : DictItem) : List Node :=
  item.key?.toList.map expr ++ [expr item.value]

theorem reads_dictItem (ordered : inner.InOrder) : Reads inner.dictItem itemParts := by
  refine fun limit p => behind_step fun unpacks => Ensures.ite ?_ ?_
  · exact (reads_bitOr ordered).bind fun e => behind_pure fun _ laid => laid
  · exact ordered.expression.bind fun key => behind_step fun _ => ordered.expression.bind fun value =>
      behind_pure fun _ laid => laid

theorem behind_dictRest (ordered : inner.InOrder) (first : DictItem) :
    Ensures (Behind limit p (itemParts first)) (inner.dictRest first) fun e =>
      Behind limit p [expr e] := by
  refine behind_step fun parted => Ensures.ite ?_ ?_
  · exact behind_items (e := .dict) (reads_dictItem ordered) (fun _ => ⟨rfl, rfl, rfl⟩) first _
  · exact behind_step fun _ => behind_made ⟨rfl, by simp [Writes], rfl⟩

theorem reads_braced (ordered : inner.InOrder) : ReadsOne inner.braced := by
  refine fun limit p => behind_step fun empty => Ensures.ite ?_ ?_
  · exact behind_made ⟨rfl, rfl, rfl⟩
  refine behind_step fun unpacks => Ensures.ite ?_ ?_
  · exact (reads_dictItem ordered).bind fun item => behind_dictRest ordered item
  refine behind_step fun binds => (reads_starNamedExpression ordered).bind fun first => ?_
  extract_lets rest
  have others (isKey : Bool) : Ensures (Behind limit p [expr first]) (rest isKey) fun e =>
      Behind limit p [expr e] := by
    refine Ensures.ite ?_ ?_
    · refine ordered.expression.bind fun value => behind_step fun follows => Ensures.ite ?_ ?_
      · exact behind_comprehension ordered fun _ => ⟨rfl, rfl, rfl⟩
      · exact behind_dictRest ordered (.pair first value)
    refine behind_step fun follows => Ensures.ite ?_ ?_
    · exact behind_comprehension ordered fun _ => ⟨rfl, rfl, rfl⟩
    refine behind_step fun parted => Ensures.ite ?_ ?_
    · exact behind_items (e := .set) (reads_starNamedExpression ordered)
        (fun _ => ⟨rfl, List.map_eq_flatMap.symm, rfl⟩) first _
    · exact behind_step fun _ => behind_made ⟨rfl, rfl, rfl⟩
  exact Ensures.ite (others false) (behind_step fun isKey => others isKey)

theorem reads_atom (ordered : inner.InOrder) : ReadsOne inner.atom := by
  have constant (value : Constant) : ReadsOne (do skip; return .constant value) := fun limit p =>
    behind_step fun _ => behind_pure fun _ laid => .quiet (quiet_constant value) laid.upright
  refine fun limit p => behind_step fun token => ?_
  split
  · exact behind_step fun _ => behind_pure fun _ laid => .quiet (quiet_name _ _) laid.upright
  · exact constant _ limit p
  · exact reads_strings ordered limit p
  · exact constant .none limit p
  · exact constant .true limit p
  · exact constant .false limit p
  · exact constant .ellipsis limit p
  · exact behind_step fun _ => reads_parenthesized ordered limit p
  · exact behind_step fun _ => reads_bracketed ordered limit p
  · exact behind_step fun _ => reads_braced ordered limit p
  · exact ensures_fail

/-! ### Calls -/

/-- A callee is laid in front of a cursor, which its opening parenthesis parts from where it starts. -/
structure Opened (limit start : Position) (callee : Expr) (c : Cursor) : Prop
    extends c.Behind limit start [expr callee] where
  begun : start < c.start
  short : start < limit

theorem opened_next {start : Position} {callee : Expr} {c : Cursor}
    (behind : c.Behind limit start [expr callee]) (opens : c.token = .operator "(") :
    Opened limit start callee c.next := by
  obtain ⟨-, -, edge⟩ := behind.steady.next
  obtain ⟨onward, inside, -⟩ := edge ['('] (by rw [opens]; rfl)
  have begun : start < advance c.start ['('] := behind.laid.upright.trans_lt (lt_advance_cons _ _ _)
  exact ⟨behind.next, begun.trans_le onward, begun.trans_le inside⟩

theorem ensures_called (ordered : inner.InOrder) (start : Position) (callee : Expr) :
    Ensures (Opened limit start callee) inner.callArguments fun read =>
      Behind limit start [expr (.call start callee read.arguments read.keywords)] := by
  intro c d read opened success
  obtain ⟨parts, given, behind⟩ :=
    ensures_callArguments ordered c d read opened.toBehind.fresh success
  refine ⟨behind.steady, opened.laid.call opened.begun opened.short behind.laid ?_⟩
  exact ⟨parts, rfl, given.perm, given.positions, given.names⟩

theorem behind_trail (ordered : inner.InOrder) (start : Position) (n : ℕ) (e : Expr) :
    Ensures (Behind limit start [expr e]) (primary.trail inner start n e) fun e =>
      Behind limit start [expr e] := by
  induction n generalizing e with
  | zero => exact behind_pure fun _ laid => laid
  | succ n ih =>
    refine behind_step fun dotted => Ensures.ite ?_ ?_
    · exact behind_step fun id => (ih _).of fun c behind => behind.made ⟨rfl, rfl, rfl⟩
    refine Ensures.tryTake (Opened limit start e) (fun c => opened_next) ?_ ?_
    · exact (ensures_called ordered start e).bind fun read => ih _
    refine behind_step fun indexed => Ensures.ite ?_ (behind_pure fun _ laid => laid)
    exact (reads_subscriptIndex ordered).bind fun index =>
      (ih _).of fun c behind => behind.made ⟨rfl, rfl, rfl⟩

theorem reads_primary (ordered : inner.InOrder) : ReadsOne inner.primary := by
  intro limit p c d e behind success
  obtain ⟨start, c', here, success⟩ := run_bind.mp success
  cases here
  have trailed : Ensures (Behind limit c.start []) (do
      primary.trail inner c.start inner.bound (← inner.atom)) fun e =>
      Behind limit c.start [expr e] :=
    (reads_atom ordered).bind fun e => behind_trail ordered c.start inner.bound e
  have read := trailed c d e behind.fresh success
  exact ⟨read.steady, read.laid.mono behind.laid.upright le_rfl le_rfl⟩

/-! ### Whole expressions -/

theorem reads_power (ordered : inner.InOrder) : ReadsOne inner.power := by
  refine fun limit p => behind_step fun awaits => ?_
  extract_lets raised
  have others (base : Expr) : Ensures (Behind limit p [expr base]) (raised base) fun e =>
      Behind limit p [expr e] := by
    refine behind_step fun follows => Ensures.ite ?_ (behind_pure fun _ laid => laid)
    exact ordered.factor.bind fun e => behind_made ⟨rfl, rfl, rfl⟩
  have awaited : ReadsOne (.await <$> inner.primary) :=
    reads_around (reads_primary ordered) fun _ => ⟨rfl, rfl, rfl⟩
  exact Ensures.ite (awaited.bind others) ((reads_primary ordered).bind others)

theorem reads_signed (ordered : inner.InOrder) : ReadsOne inner.signed := by
  refine fun limit p => behind_step fun signs => (reads_power ordered).bind fun operand => ?_
  refine behind_pure fun q laid => ?_
  induction signs with
  | nil => exact laid
  | cons _ rest ih => exact ih.made ⟨rfl, rfl, rfl⟩

/-- A function without a name opens a scope. -/
theorem reads_lambda (inner : Inner) : ReadsOne inner.lambda := by
  refine fun limit p => behind_step fun _ => behind_step fun parameters => behind_step fun _ =>
    behind_step fun body => behind_pure fun _ laid => ?_
  exact .scope laid.upright rfl (Laid.nil le_rfl)

theorem reads_wholeExpression (ordered : inner.InOrder) : ReadsOne inner.wholeExpression := by
  refine fun limit p => behind_step fun isLambda => Ensures.ite (reads_lambda inner limit p) ?_
  refine (reads_disjunction ordered).bind fun body => behind_step fun conditioned => ?_
  refine Ensures.ite ?_ (behind_pure fun _ laid => laid)
  exact (reads_disjunction ordered).bind fun test => behind_step fun _ =>
    ordered.expression.bind fun otherwise => behind_made ⟨rfl, rfl, rfl⟩

/-! ### Every depth of nesting -/

/-- What is read between the parentheses that stand for the braces of a field is laid there. -/
theorem laid_field (ordered : inner.InOrder) {brace : Position} {source : List Char} {lastLine : ℕ}
    {e : Expr} {d : Cursor} (unified : '\r' ∉ source)
    (read : inner.starExpressions.run ⟨lexemesAt brace true ('(' :: source ++ [')']), lastLine⟩ =
      .ok (e, d)) :
    Laid (advance (advance brace ['\x7b']) source) brace (advance (advance brace ['\x7b']) source)
      [expr e] := by
  have tokens := behind_of_spaced (spaced_field brace unified) (scan_isEnded _ _ _) lastLine
  have laid := (reads_starExpressions ordered _ _ _ d e tokens read).laid
  exact laid.toLimit ((le_advance _ _).trans (le_advance _ _))

/-- The rules at a depth of nesting. -/
def within (bound n : ℕ) : Inner where
  bound := bound
  expression := later fun _ => readWithin bound n .expression
  factor := later fun _ => readWithin bound n .factor
  field := fun position source => fieldWithin bound n position source

theorem inOrder_within (bound n : ℕ) : (within bound n).InOrder := by
  induction n with
  | zero => exact ⟨reads_fail, reads_fail, nofun⟩
  | succ n ih =>
    refine ⟨reads_wholeExpression ih, reads_signed ih, fun unified read => ?_⟩
    simp only [within, fieldWithin] at read
    split at read
    · rename_i success
      cases read
      exact laid_field ih unified success
    · cases read

theorem inOrder_ofBound (bound : ℕ) : (ofBound bound).InOrder :=
  inOrder_within bound bound

end Inner

end ProbeWeave.Syntax
