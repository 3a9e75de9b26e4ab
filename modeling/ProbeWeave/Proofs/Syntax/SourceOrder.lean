import ProbeWeave.Proofs.Syntax.ExpressionOrder
import ProbeWeave.Syntax.Grammar.Statement

/-! # The calls of a scope are in the order of the text

Patterns and statements are read in the order of the text as expressions are, so the statements of a
module, and those of each body and block in it, lie in its text as written. The calls of a scope are
therefore all calls of the scope, in the order of the text as long as no part of a node is overtaken.
-/

namespace ProbeWeave.Syntax

open Lexer Node Reading Cursor Inner

/-! ### Patterns -/

namespace PatternRules

variable {inner : Inner} {rule : Reading Pattern} {limit p : Position}

/-- Whether a rule reads a pattern whose calls lie as written. -/
abbrev ReadsPattern (rule : Reading Pattern) : Prop :=
  Reads rule fun p => [Node.pattern p]

theorem behind_memberChain (n : ℕ) (e : Expr) :
    Ensures (Behind limit p [expr e]) (memberChain n e) fun e => Behind limit p [expr e] := by
  induction n generalizing e with
  | zero => exact behind_pure fun _ laid => laid
  | succ n ih =>
    refine behind_step fun dotted => Ensures.ite ?_ (behind_pure fun _ laid => laid)
    exact behind_step fun id => (ih _).of fun c behind => behind.made ⟨rfl, rfl, rfl⟩

/-- A name with the members behind it. -/
theorem reads_memberChain (n : ℕ) (id : String) : ReadsOne (memberChain n (.name id .load)) :=
  fun _ _ => (behind_memberChain n _).of fun _ behind => behind.quiet (quiet_name id .load)

theorem reads_signedNumber : Reads signedNumber fun found => [expr found.1] := by
  refine fun limit p => behind_step fun negative => behind_step fun token => ?_
  split
  · rename_i value
    refine behind_step fun _ => behind_pure fun q laid => ?_
    have number : Laid limit p q [expr (.constant value)] := .quiet (quiet_constant value) laid.upright
    dsimp only
    split
    · exact number.made ⟨rfl, rfl, rfl⟩
    · exact number
  · exact ensures_fail

theorem reads_numberLiteral : ReadsOne numberLiteral := by
  refine fun limit p => reads_signedNumber.bind fun found => ?_
  obtain ⟨real, value⟩ := found
  refine behind_step fun token => ?_
  extract_lets op
  clear_value op
  dsimp only
  split
  · exact behind_pure fun _ laid => laid
  · refine behind_step fun _ => behind_step fun second => ?_
    split
    · rename_i other
      refine Ensures.ite ensures_fail_bind (behind_step fun _ => behind_pure fun q laid => ?_)
      have sum := laid.append (.quiet (quiet_constant other) le_rfl)
      exact sum.made ⟨rfl, rfl, rfl⟩
    · exact ensures_fail

theorem reads_literal (ordered : inner.InOrder) :
    Reads (literal inner) fun found => found.toList.map expr := by
  refine fun limit p => behind_step fun token => ?_
  split
  · exact reads_numberLiteral.bind fun e => behind_pure fun _ laid => laid
  · exact reads_numberLiteral.bind fun e => behind_pure fun _ laid => laid
  · exact (reads_strings ordered).bind fun e => behind_pure fun _ laid => laid
  · exact behind_pure fun _ laid => laid

theorem reads_sequenceEntry (reads : ReadsPattern rule) : ReadsPattern (sequenceEntry rule) := by
  have star (id : Option String) : (Node.pattern (.star id)).Quiet := MadeOf.quiet ⟨rfl, rfl, rfl⟩
  refine fun limit p => behind_step fun starred => Ensures.ite ?_ (reads limit p)
  refine behind_step fun unnamed => Ensures.ite ?_ ?_
  · exact behind_pure fun _ laid => .quiet (star none) laid.upright
  · exact behind_step fun id => behind_pure fun _ laid => .quiet (star (some id)) laid.upright

theorem reads_sequenceRest (reads : ReadsPattern rule) (close : String) :
    Reads (sequenceRest inner rule close) fun found => found.1.map Node.pattern := by
  refine fun limit p => behind_step fun closed => Ensures.ite (behind_pure fun _ laid => laid) ?_
  refine (reads_commaSeparated_map (reads_sequenceEntry reads) _).bind fun found => ?_
  exact behind_step fun _ => behind_pure fun _ laid => laid

/-- An entry of a mapping as it is written. -/
abbrev entryParts (entry : Expr × Pattern) : List Node :=
  [expr entry.1] ++ [Node.pattern entry.2]

theorem reads_mappingEntry (ordered : inner.InOrder) (reads : ReadsPattern rule) :
    Reads (mappingEntry inner rule) entryParts := by
  refine fun limit p => (reads_literal ordered).bind fun found => ?_
  extract_lets entry
  have valued (key : Expr) : Ensures (Behind limit p [expr key]) (entry key) fun found =>
      Behind limit p (entryParts found) :=
    behind_step fun _ => reads.bind fun value => behind_pure fun _ laid => laid
  cases found with
  | some key => exact valued key
  | none =>
    refine behind_step fun found => ?_
    cases found with
    | some value => exact (valued _).of fun _ behind => behind.quiet (quiet_constant value)
    | none =>
      refine behind_step fun id => behind_step fun dotted => Ensures.ite ensures_fail_bind ?_
      exact (reads_memberChain _ id).bind valued

theorem behind_mapping (ordered : inner.InOrder) (reads : ReadsPattern rule)
    (read : List (Expr × Pattern)) (n : ℕ) :
    Ensures (Behind limit p (read.flatMap entryParts)) (mapping inner rule read n) fun found =>
      Behind limit p [Node.pattern found] := by
  have done (read : List (Expr × Pattern)) (rest : Option String) :
      Ensures (Behind limit p (read.flatMap entryParts))
        (pure (.mapping (read.map (·.1)) (read.map (·.2)) rest)) fun found =>
        Behind limit p [Node.pattern found] :=
    behind_pure fun _ laid => laid.made ⟨rfl, ⟨read, rfl, rfl, rfl⟩, rfl⟩
  induction n generalizing read with
  | zero => exact ensures_fail
  | succ n ih =>
    refine behind_step fun closed => Ensures.ite (done read none) ?_
    refine behind_step fun unpacks => Ensures.ite ?_ ?_
    · exact behind_step fun rest => behind_step fun _ => behind_step fun _ => done read (some rest)
    · refine (reads_mappingEntry ordered reads).bind fun entry => ?_
      have more : read.flatMap entryParts ++ entryParts entry =
          (read ++ [entry]).flatMap entryParts := by simp
      rw [more]
      exact behind_step fun parted => Ensures.ite (ih _) (behind_step fun _ => done _ none)

/-- What is read of a pattern of a class, positions in front of keywords. -/
abbrev instanceParts (cls : Expr) (positions : List Pattern) (keywords : List (String × Pattern)) :
    List Node :=
  expr cls :: (positions ++ keywords.map (·.2)).map Node.pattern

theorem behind_classArguments (reads : ReadsPattern rule) (cls : Expr) (positions : List Pattern)
    (keywords : List (String × Pattern)) (n : ℕ) :
    Ensures (Behind limit p (instanceParts cls positions keywords))
      (classArguments rule cls positions keywords n) fun found =>
      Behind limit p [Node.pattern found] := by
  have done (positions : List Pattern) (keywords : List (String × Pattern)) :
      Ensures (Behind limit p (instanceParts cls positions keywords))
        (pure (.instanceOf cls positions (keywords.map (·.1)) (keywords.map (·.2)))) fun found =>
        Behind limit p [Node.pattern found] :=
    behind_made ⟨rfl, rfl, rfl⟩
  induction n generalizing positions keywords with
  | zero => exact ensures_fail
  | succ n ih =>
    refine behind_step fun closed => Ensures.ite (done positions keywords) ?_
    refine behind_step fun token => behind_step fun second => ?_
    extract_lets rest
    have others (positions : List Pattern) (keywords : List (String × Pattern)) :
        Ensures (Behind limit p (instanceParts cls positions keywords)) (rest (positions, keywords))
          fun found => Behind limit p [Node.pattern found] :=
      behind_step fun parted => Ensures.ite (ih _ _) (behind_step fun _ => done _ _)
    split
    · rename_i id
      refine behind_step fun _ => behind_step fun _ => reads.bind fun value => ?_
      have more : instanceParts cls positions keywords ++ [Node.pattern value] =
          instanceParts cls positions (keywords ++ [(id, value)]) := by simp
      exact more ▸ others _ _
    · -- behind a keyword no position is read, so positions stay in front
      cases keywords with
      | cons => exact ensures_fail_bind
      | nil =>
        refine reads.bind fun value => ?_
        have more : instanceParts cls positions [] ++ [Node.pattern value] =
            instanceParts cls (positions ++ [value]) [] := by simp
        exact more ▸ others _ _

theorem reads_named (reads : ReadsPattern rule) (id : String) :
    ReadsPattern (named inner rule id) := by
  have name (id : Option String) : (Node.pattern (.bind none id)).Quiet :=
    MadeOf.quiet ⟨rfl, rfl, rfl⟩
  refine fun limit p => Ensures.ite ?_ (behind_step fun second => ?_)
  · exact behind_step fun _ => behind_pure fun _ laid => .quiet (name none) laid.upright
  · have dotted : Ensures (Behind limit p []) (do
        skip
        let e ← memberChain inner.bound (.name id .load)
        if ← takeOperator "(" then classArguments rule e [] [] inner.bound
        else if ← seesOperator "=" then fail
        else return .value e) fun found => Behind limit p [Node.pattern found] := by
      refine behind_step fun _ => (reads_memberChain _ id).bind fun e => behind_step fun called => ?_
      refine Ensures.ite (behind_classArguments reads e [] [] _) ?_
      exact behind_step fun assigned => Ensures.ite ensures_fail (behind_made ⟨rfl, rfl, rfl⟩)
    split
    · exact dotted
    · exact dotted
    · exact behind_step fun id => behind_pure fun _ laid => .quiet (name (some id)) laid.upright

/-- Patterns of a sequence are laid as the sequence is. -/
theorem laid_sequence {q : Position} {patterns : List Pattern}
    (laid : Laid limit p q (patterns.map Node.pattern)) :
    Laid limit p q [Node.pattern (.sequence patterns)] :=
  laid.made ⟨rfl, rfl, rfl⟩

theorem reads_grouped (reads : ReadsPattern rule) : ReadsPattern (grouped inner rule) := by
  refine fun limit p => (reads_sequenceRest reads _).bind fun found => ?_
  obtain ⟨patterns, trailing⟩ := found
  dsimp only
  split
  · exact ensures_fail
  · exact behind_pure fun _ laid => laid
  · exact behind_pure fun _ laid => laid_sequence laid

theorem reads_closed (ordered : inner.InOrder) (reads : ReadsPattern rule) :
    ReadsPattern (closed inner rule) := by
  refine fun limit p => (reads_literal ordered).bind fun found => ?_
  cases found with
  | some e => exact behind_made ⟨rfl, rfl, rfl⟩
  | none =>
    refine behind_step fun found => ?_
    cases found with
    | some value =>
      have quiet : (Node.pattern (.singleton value)).Quiet := MadeOf.quiet ⟨rfl, rfl, rfl⟩
      exact behind_pure fun _ laid => .quiet quiet laid.upright
    | none =>
      refine behind_step fun token => ?_
      dsimp only
      split
      · exact reads_named reads _ limit p
      · exact behind_step fun _ => reads_grouped reads limit p
      · exact behind_step fun _ => (reads_sequenceRest reads _).bind fun found =>
          behind_pure fun _ laid => laid_sequence laid
      · exact behind_step fun _ => behind_mapping ordered reads [] _
      · exact ensures_fail

theorem reads_whole (ordered : inner.InOrder) (reads : ReadsPattern rule) :
    ReadsPattern (whole inner rule) := by
  have others : Reads (do if ← takeOperator "|" then some <$> closed inner rule else return none)
      fun found => found.toList.map Node.pattern := fun limit p =>
    behind_step fun follows => Ensures.ite
      ((reads_closed ordered reads).map (fun _ laid => laid) limit p) (behind_pure fun _ laid => laid)
  refine fun limit p => (reads_closed ordered reads).bind fun first =>
    (reads_collect others _).bind fun rest => ?_
  extract_lets found
  have known {q : Position} (laid : Laid limit p q (Node.pattern first :: rest.map Node.pattern)) :
      Laid limit p q [Node.pattern found] := by
    simp only [found]
    split
    · exact laid.sublist (List.sublist_append_left [_] _)
    · exact laid.made ⟨rfl, rfl, rfl⟩
  refine behind_step fun bound => Ensures.ite ?_ (behind_pure fun _ => known)
  exact behind_step fun id => behind_pure fun _ laid => (known laid).made ⟨rfl, rfl, rfl⟩

end PatternRules

open PatternRules in
theorem reads_patternWithin {inner : Inner} (ordered : inner.InOrder) (n : ℕ) :
    ReadsPattern (patternWithin inner n) := by
  induction n with
  | zero => exact reads_fail
  | succ n ih => exact reads_whole ordered ih

open PatternRules in
theorem reads_casePattern {inner : Inner} (ordered : inner.InOrder) :
    ReadsPattern (casePattern inner) := by
  have whole : ReadsPattern (pattern inner) := reads_patternWithin ordered _
  refine fun limit p => (reads_commaSeparated_map (reads_sequenceEntry whole) _).bind fun found => ?_
  obtain ⟨patterns, trailing⟩ := found
  dsimp only
  split
  · exact ensures_fail
  · exact behind_pure fun _ laid => laid
  · exact behind_pure fun _ laid => laid_sequence laid

/-! ### Simple statements -/

namespace StatementRules

variable {inner : Inner} {limit p q : Position} {lines : Lines}

/-- Whether a rule reads a statement, its lines left aside, whose calls lie as written. -/
abbrev ReadsPlain (rule : Reading (Lines → Stmt)) : Prop :=
  ∀ lines, Reads rule fun f => [stmt (f lines)]

theorem reads_importModules : ReadsPlain (importModules inner) := by
  refine fun lines limit p => behind_step fun _ => behind_step fun names => ?_
  exact Ensures.ite ensures_fail_bind (behind_made ⟨rfl, rfl, rfl⟩)

theorem reads_importNames : ReadsPlain (importNames inner) := by
  refine fun lines limit p => behind_step fun _ => behind_step fun level => behind_step fun near => ?_
  extract_lets rest
  have named (module : Option String) : Ensures (Behind limit p []) (rest module) fun f =>
      Behind limit p [stmt (f lines)] := by
    refine behind_step fun _ => behind_step fun all => Ensures.ite (behind_made ⟨rfl, rfl, rfl⟩) ?_
    refine behind_step fun opened => Ensures.ite ?_ ?_
    · exact behind_step fun names => behind_step fun _ => behind_made ⟨rfl, rfl, rfl⟩
    · exact behind_step fun names => behind_made ⟨rfl, rfl, rfl⟩
  exact Ensures.ite (named none) (behind_step fun module => named module)

theorem behind_assignment (ordered : inner.InOrder) (targets : List Expr) (e : Expr) (n : ℕ) :
    Ensures (Behind limit p (targets.map expr ++ [expr e])) (assignment inner targets e n) fun f =>
      Behind limit p [stmt (f lines)] := by
  induction n generalizing targets e with
  | zero => exact ensures_fail
  | succ n ih =>
    refine behind_step fun more => Ensures.ite ?_ (behind_made ⟨rfl, rfl, rfl⟩)
    refine (behind_target _ e).bind fun target => behind_step fun _ => ?_
    refine (reads_yieldOrStarExpressions ordered).bind fun next => ?_
    have longer : targets.map expr ++ [expr target] = (targets ++ [target]).map expr := by simp
    exact longer ▸ ih _ _

theorem behind_singleTarget (e : Expr) :
    Ensures (Behind limit p [expr e]) (unwrap (e.toSingleTarget? .store)) fun t =>
      Behind limit p [expr t] :=
  behind_unwrap fun t found q laid =>
    show Laid limit p q ([] ++ [expr t]) from laid_like laid (like_toSingleTarget found)

theorem reads_expressionStatement (ordered : inner.InOrder) :
    ReadsPlain (expressionStatement inner) := by
  refine fun lines limit p => behind_step fun opening => ?_
  refine (reads_yieldOrStarExpressions ordered).bind fun first => behind_step fun next => ?_
  refine Ensures.ite ?_ ?_
  · refine (behind_singleTarget first).bind fun target => behind_step fun _ => ?_
    refine ordered.expression.bind fun annotation => behind_step fun assigned => ?_
    refine behind_optional (reads_yieldOrStarExpressions ordered) fun value => ?_
    exact behind_made ⟨rfl, rfl, rfl⟩
  · split
    · refine (behind_singleTarget first).bind fun target => behind_step fun _ => ?_
      exact (reads_yieldOrStarExpressions ordered).bind fun value => behind_made ⟨rfl, rfl, rfl⟩
    · exact Ensures.ite (behind_assignment ordered [] first _) (behind_made ⟨rfl, rfl, rfl⟩)

theorem reads_deleted (ordered : inner.InOrder) :
    Reads (deleted inner) fun targets => targets.map expr := by
  refine fun limit p => (reads_commaSeparated_map (fun limit p => ?_) _).bind fun found =>
    behind_pure fun _ laid => laid
  exact (reads_bitOr ordered).bind fun e => behind_target [] e

theorem reads_simpleContent (ordered : inner.InOrder) : ReadsPlain (simpleContent inner) := by
  refine fun lines limit p => behind_step fun token => ?_
  split
  · refine behind_step fun _ => behind_step fun token => ?_
    refine behind_optional (reads_starExpressions ordered) fun value => ?_
    exact behind_made ⟨rfl, rfl, rfl⟩
  · exact reads_importModules lines limit p
  · exact reads_importNames lines limit p
  · refine behind_step fun _ => behind_step fun token => Ensures.ite ?_ (behind_made ⟨rfl, rfl, rfl⟩)
    refine ordered.expression.bind fun exception => behind_step fun follows => ?_
    refine behind_optional ordered.expression fun cause => ?_
    exact behind_made ⟨rfl, rfl, rfl⟩
  · exact behind_step fun _ => behind_made ⟨rfl, rfl, rfl⟩
  · exact behind_step fun _ => behind_made ⟨rfl, rfl, rfl⟩
  · exact behind_step fun _ => behind_made ⟨rfl, rfl, rfl⟩
  · exact behind_step fun _ => (reads_deleted ordered).bind fun targets => behind_made ⟨rfl, rfl, rfl⟩
  · refine behind_step fun _ => ordered.expression.bind fun test => behind_step fun follows => ?_
    refine behind_optional ordered.expression fun message => ?_
    exact behind_made ⟨rfl, rfl, rfl⟩
  · exact behind_step fun _ => behind_step fun ids => behind_made ⟨rfl, rfl, rfl⟩
  · exact behind_step fun _ => behind_step fun ids => behind_made ⟨rfl, rfl, rfl⟩
  · exact reads_expressionStatement ordered lines limit p

/-! ### Compound statements -/

/-- Whether a rule reads statements that lie as written. -/
abbrev ReadsAll (rule : Reading (List Stmt)) : Prop :=
  Reads rule fun body => body.map stmt

/-- Whether a rule reads a statement that lies as written. -/
abbrev ReadsStmt (rule : Reading Stmt) : Prop :=
  Reads rule fun s => [stmt s]

variable {statement : Reading (List Stmt)}

theorem reads_simple (ordered : inner.InOrder) : ReadsStmt (simple inner) := by
  refine fun limit p => behind_step fun position => ?_
  intro c d s behind success
  obtain ⟨f, d', content, success⟩ := run_bind.mp success
  cases success
  exact reads_simpleContent ordered _ limit p c d f behind content

theorem reads_simpleLine (ordered : inner.InOrder) (n : ℕ) : ReadsAll (simpleLine inner n) := by
  induction n with
  | zero => exact reads_fail
  | succ n ih =>
    refine fun limit p => (reads_simple ordered).bind fun s => behind_step fun parted => ?_
    refine Ensures.ite ?_ (behind_step fun _ => behind_pure fun _ laid => laid)
    refine behind_step fun ended => Ensures.ite (behind_pure fun _ laid => laid) ?_
    exact ih.bind fun rest => behind_pure fun _ laid => laid

theorem reads_indented (reads : ReadsAll statement) (n : ℕ) : ReadsAll (indented statement n) := by
  induction n with
  | zero => exact reads_fail
  | succ n ih =>
    refine fun limit p => reads.bind fun first => behind_step fun ended => ?_
    refine Ensures.ite (behind_pure fun _ laid => laid) ?_
    exact ih.bind fun rest => behind_pure fun _ laid => by simpa using laid

theorem reads_block (ordered : inner.InOrder) (reads : ReadsAll statement) :
    ReadsAll (block inner statement) := by
  refine fun limit p => behind_step fun _ => behind_step fun ended => Ensures.ite ?_ ?_
  · refine behind_step fun deeper => Ensures.ite ensures_failWith_bind ?_
    exact reads_indented reads _ limit p
  · exact reads_simpleLine ordered _ limit p

theorem reads_optionalBlock (ordered : inner.InOrder) (reads : ReadsAll statement) (word : String) :
    ReadsAll (optionalBlock inner statement word) := by
  refine fun limit p => behind_step fun follows => ?_
  exact Ensures.ite (reads_block ordered reads limit p) (behind_pure fun _ laid => laid)

/-- The lines that a statement is given do not change where its calls lie. -/
theorem behind_spanning {first : ℕ} {f : Lines → Stmt} {parts : List Node}
    (made : ∀ lines, (stmt (f lines)).MadeOf parts) :
    Ensures (Behind limit p parts) (spanning first f) fun s => Behind limit p [stmt s] := by
  intro c d s behind success
  cases success
  exact behind.made (made _)

theorem reads_branch (ordered : inner.InOrder) (reads : ReadsAll statement) (first n : ℕ) :
    ReadsStmt (branch inner statement first n) := by
  induction n generalizing first with
  | zero => exact reads_fail
  | succ n ih =>
    refine fun limit p => (reads_namedExpression ordered).bind fun test => ?_
    refine (reads_block ordered reads).bind fun body => behind_step fun position => ?_
    refine behind_step fun another => Ensures.ite ?_ ?_
    · refine (ih position.line).bind fun otherwise => ?_
      exact behind_spanning fun _ => ⟨rfl, by simp [Writes, children, Stmt.children], rfl⟩
    · refine (reads_optionalBlock ordered reads "else").bind fun otherwise => ?_
      exact behind_spanning fun _ => ⟨rfl, by simp [Writes, children, Stmt.children], rfl⟩

theorem reads_forLoop (ordered : inner.InOrder) (reads : ReadsAll statement) (first : ℕ)
    (isAsync : Bool) : ReadsStmt (forLoop inner statement first isAsync) := by
  refine fun limit p => (reads_loopTarget ordered).bind fun target => behind_step fun _ => ?_
  refine (reads_starExpressions ordered).bind fun source => ?_
  refine (reads_block ordered reads).bind fun body => ?_
  refine (reads_optionalBlock ordered reads "else").bind fun otherwise => ?_
  exact behind_spanning fun _ => ⟨rfl, by simp [Writes, children, Stmt.children], rfl⟩

theorem reads_withItem (ordered : inner.InOrder) :
    Reads (withItem inner) fun item => [Node.withItem item] := by
  refine fun limit p => ordered.expression.bind fun context => behind_step fun bound => ?_
  refine Ensures.ite ?_ (behind_made ⟨rfl, rfl, rfl⟩)
  refine behind_step fun starred => ?_
  extract_lets target
  have targeted (e : Expr) : Ensures (Behind limit p ([expr context] ++ [expr e])) (target e)
      fun item => Behind limit p [Node.withItem item] :=
    (behind_target _ e).bind fun t => behind_made ⟨rfl, rfl, rfl⟩
  exact Ensures.ite ((reads_starred ordered).bind targeted) ((reads_bitOr ordered).bind targeted)

theorem reads_orElse {α : Type} {first second : Reading α} {parts : α → List Node}
    (one : Reads first parts) (other : Reads second parts) : Reads (orElse first second) parts := by
  intro limit p c d a behind success
  dsimp only [orElse] at success
  split at success
  · rename_i read
    cases success
    exact one limit p c d a behind read
  · split at success
    · rename_i read
      cases success
      exact other limit p c d a behind read
    · cases success

theorem reads_withBlock (ordered : inner.InOrder) (reads : ReadsAll statement) (first : ℕ)
    (isAsync : Bool) : ReadsStmt (withBlock inner statement first isAsync) := by
  have items {more : Token → Bool} : Reads (commaSeparated more (withItem inner) inner.bound)
      fun found => found.1.map Node.withItem := reads_commaSeparated_map (reads_withItem ordered) _
  have enclosed : Reads (parenthesizedItems inner) fun items => items.map Node.withItem := by
    refine fun limit p => behind_step fun _ => items.bind fun found => behind_step fun _ => ?_
    exact behind_step fun ends => Ensures.ite ensures_fail_bind (behind_pure fun _ laid => laid)
  intro limit p
  unfold withBlock
  extract_lets plain built
  have bare : Reads plain fun items => items.map Node.withItem := by
    refine fun limit p => items.bind fun found => ?_
    exact Ensures.ite ensures_fail_bind (behind_pure fun _ laid => laid)
  have body (items : List WithItem) : Ensures (Behind limit p (items.map Node.withItem))
      (built items) fun s => Behind limit p [stmt s] :=
    (reads_block ordered reads).bind fun body => behind_spanning fun _ => ⟨rfl, rfl, rfl⟩
  exact behind_step fun opened => Ensures.ite ((reads_orElse enclosed bare).bind body) (bare.bind body)

/-- A clause of a `try` statement. -/
theorem reads_handler (ordered : inner.InOrder) (reads : ReadsAll statement) :
    Reads (handler inner statement) fun found => found.toList.map (Node.handler ·.2) := by
  refine fun limit p => behind_step fun follows => Ensures.ite (behind_pure fun _ laid => laid) ?_
  refine behind_step fun isGroup => behind_step fun bare => Ensures.ite ?_ ?_
  · exact (reads_block ordered reads).bind fun body =>
      behind_pure fun _ laid => laid.made ⟨rfl, rfl, rfl⟩
  · refine ordered.expression.bind fun type => behind_step fun id => ?_
    exact (reads_block ordered reads).bind fun body =>
      behind_pure fun _ laid => laid.made ⟨rfl, rfl, rfl⟩

theorem reads_tryBlock (ordered : inner.InOrder) (reads : ReadsAll statement) (first : ℕ) :
    ReadsStmt (tryBlock inner statement first) := by
  refine fun limit p => (reads_block ordered reads).bind fun body => ?_
  refine (reads_collect (reads_handler ordered reads) _).bind fun handlers => ?_
  extract_lets isGroup rest
  have last (otherwise : List Stmt) : Ensures
      (Behind limit p (body.map stmt ++ handlers.map (Node.handler ·.2) ++ otherwise.map stmt))
      (rest otherwise) fun s => Behind limit p [stmt s] := by
    refine (reads_optionalBlock ordered reads "finally").bind fun final => ?_
    refine Ensures.ite ensures_fail_bind (behind_spanning fun _ => ?_)
    exact ⟨rfl, by simp [Writes, children, Stmt.children], rfl⟩
  refine Ensures.ite ensures_fail_bind (Ensures.ite ?_ ?_)
  · have none := last []
    rw [List.map_nil, List.append_nil] at none
    exact none
  · exact (reads_optionalBlock ordered reads "else").bind last

/-- A definition opens a scope, in which its statements lie as written. -/
theorem behind_scope {first : ℕ} {f : Lines → Stmt} {body : List Stmt}
    (opened : ∀ lines, (stmt (f lines)).opensScope = true ∧ (stmt (f lines)).inner = body) :
    Ensures (Behind limit p (body.map stmt)) (spanning first f) fun s => Behind limit p [stmt s] := by
  intro c d s behind success
  cases success
  obtain ⟨opened, same⟩ := opened ⟨first, c.lastLine⟩
  exact ⟨behind.steady, .scope behind.laid.upright opened (same ▸ behind.laid)⟩

theorem reads_functionDef (ordered : inner.InOrder) (reads : ReadsAll statement) (first : ℕ)
    (isAsync : Bool) (decorators : List Decorator) :
    ReadsStmt (functionDef inner statement first isAsync decorators) := by
  refine fun limit p => behind_step fun _ => behind_step fun id => behind_step fun _ =>
    behind_step fun parameters => behind_step fun _ => behind_step fun annotated => ?_
  extract_lets rest
  have built (returns : Option Expr) : Ensures (Behind limit p []) (rest returns) fun s =>
      Behind limit p [stmt s] :=
    (reads_block ordered reads).bind fun body => behind_scope fun _ => ⟨rfl, rfl⟩
  exact Ensures.ite (behind_step built) (built none)

theorem reads_classDef (ordered : inner.InOrder) (reads : ReadsAll statement) (first : ℕ)
    (decorators : List Decorator) : ReadsStmt (classDef inner statement first decorators) := by
  refine fun limit p => behind_step fun _ => behind_step fun id => behind_step fun opened => ?_
  extract_lets rest
  have built (read : ArgumentsRead) : Ensures (Behind limit p []) (rest read) fun s =>
      Behind limit p [stmt s] :=
    (reads_block ordered reads).bind fun body => behind_scope fun _ => ⟨rfl, rfl⟩
  exact Ensures.ite (behind_step built) (built {})

theorem reads_definition (ordered : inner.InOrder) (reads : ReadsAll statement)
    (decorators : List Decorator) : ReadsStmt (definition inner statement decorators) := by
  refine fun limit p => behind_step fun position => behind_step fun token => ?_
  split
  · exact reads_classDef ordered reads _ _ limit p
  · exact behind_step fun _ => reads_functionDef ordered reads _ _ _ limit p
  · exact reads_functionDef ordered reads _ _ _ limit p

theorem reads_matchHead (ordered : inner.InOrder) : ReadsOne (matchHead inner) := by
  refine fun limit p => behind_step fun _ => (reads_starNamedExpression ordered).bind fun first => ?_
  refine behind_step fun parted => ?_
  extract_lets rest
  have ends {e : Expr} {parts : List Node}
      (made : ∀ q, Laid limit p q parts → Laid limit p q [expr e]) :
      Ensures (Behind limit p parts) (rest e) fun e => Behind limit p [expr e] :=
    behind_step fun _ => behind_step fun _ => behind_pure made
  refine Ensures.ite ?_ (Ensures.ite ensures_fail_bind (ends fun _ laid => laid))
  refine behind_step fun colon => Ensures.ite (ends fun _ laid => laid.made ⟨rfl, rfl, rfl⟩) ?_
  refine (reads_commaSeparated_map (reads_starNamedExpression ordered) _).bind fun found => ?_
  exact ends fun _ laid => laid.made ⟨rfl, rfl, rfl⟩

/-- A `case` block. -/
theorem reads_caseBlock (ordered : inner.InOrder) (reads : ReadsAll statement) :
    Reads (caseBlock inner statement) fun found => found.toList.map matchCase := by
  refine fun limit p => behind_step fun follows => Ensures.ite (behind_pure fun _ laid => laid) ?_
  refine (reads_casePattern ordered).bind fun shape => behind_step fun guarded => ?_
  refine behind_optional (reads_namedExpression ordered) fun guard => ?_
  exact (reads_block ordered reads).bind fun body => behind_pure fun _ laid => laid.made ⟨rfl, rfl, rfl⟩

theorem behind_matchBlock (ordered : inner.InOrder) (reads : ReadsAll statement) (first : ℕ)
    (subject : Expr) : Ensures (Behind limit p [expr subject])
      (matchBlock inner statement first subject) fun s => Behind limit p [stmt s] := by
  refine behind_step fun deeper => Ensures.ite ensures_failWith_bind ?_
  refine (reads_collect (reads_caseBlock ordered reads) _).bind fun cases => ?_
  refine Ensures.ite ensures_fail_bind (behind_step fun _ => ?_)
  exact behind_spanning fun _ => ⟨rfl, rfl, rfl⟩

theorem reads_whole (ordered : inner.InOrder) (reads : ReadsAll statement) :
    ReadsAll (whole inner statement) := by
  have single {limit p : Position} {parts : List Node} {rule : Reading Stmt}
      (read : Ensures (Behind limit p parts) rule fun s => Behind limit p [stmt s]) :
      Ensures (Behind limit p parts) (do return [← rule]) fun body => Behind limit p (body.map stmt) :=
    read.bind fun s => behind_pure fun _ laid => laid
  refine fun limit p => behind_step fun position => behind_step fun token => ?_
  split
  · exact behind_step fun _ => single (reads_branch ordered reads _ _ limit p)
  · exact behind_step fun _ => single (reads_forLoop ordered reads _ _ limit p)
  · refine behind_step fun _ => (reads_namedExpression ordered).bind fun test => ?_
    refine (reads_block ordered reads).bind fun body => ?_
    refine (reads_optionalBlock ordered reads "else").bind fun otherwise => single ?_
    exact behind_spanning fun _ => ⟨rfl, by simp [Writes, children, Stmt.children], rfl⟩
  · exact behind_step fun _ => single (reads_withBlock ordered reads _ _ limit p)
  · exact behind_step fun _ => single (reads_tryBlock ordered reads _ limit p)
  · exact single (reads_definition ordered reads _ limit p)
  · exact single (reads_definition ordered reads _ limit p)
  · exact behind_step fun decorators => single (reads_definition ordered reads _ limit p)
  · refine behind_step fun second => ?_
    split
    · exact behind_step fun _ => behind_step fun _ => single (reads_forLoop ordered reads _ _ limit p)
    · exact behind_step fun _ => behind_step fun _ => single (reads_withBlock ordered reads _ _ limit p)
    · exact single (reads_definition ordered reads _ limit p)
  · refine Ensures.attempt (reads_matchHead ordered limit p) (fun subject => ?_) ?_
    · exact single (behind_matchBlock ordered reads _ subject)
    · exact reads_simpleLine ordered _ limit p
  · exact reads_simpleLine ordered _ limit p

end StatementRules

/-! ### The statements of a module -/

open StatementRules in
theorem reads_statementWithin {inner : Inner} (ordered : inner.InOrder) (n : ℕ) :
    ReadsAll (statementWithin inner n) := by
  induction n with
  | zero => exact reads_fail
  | succ n ih => exact reads_whole ordered ih

open StatementRules in
theorem reads_statements {inner : Inner} (ordered : inner.InOrder) (n : ℕ) :
    ReadsAll (statements inner n) := by
  induction n with
  | zero => exact reads_fail
  | succ n ih =>
    refine fun limit p => behind_step fun token => Ensures.ite (behind_pure fun _ laid => laid) ?_
    refine (reads_statementWithin ordered _).bind fun first => ?_
    exact ih.bind fun rest => behind_pure fun _ laid => by simpa using laid

/-- The statements of a module lie in its text as written. -/
theorem row_of_parseModule {source : String} {body : List Stmt}
    (parsed : parseModule source = .ok body) : Row body := by
  unfold parseModule at parsed
  split at parsed
  · cases parsed
  · extract_lets bound at parsed
    split at parsed
    · rename_i d read
      cases parsed
      obtain ⟨limit, spaced⟩ := spaced_lexemes source
      have start := behind_of_spaced spaced (lexemes_isEnded source) 0
      have laid := (reads_statements (inOrder_ofBound bound) bound limit _ _ _ _ start read).laid
      exact ⟨laid.ordered, fun s member => laid.sound _ (List.mem_map_of_mem member)⟩
    · cases parsed

/-- The calls of a scope are all calls in it that no definition and no function without a name
encloses, each one once. They are in the order of the text if and only if no part of a node of the
scope is listed in front of others behind which it is written, with calls in both. -/
theorem calls_ordered {source : String} {body block : List Stmt}
    (parsed : parseModule source = .ok body) (listed : ListedIn body block) :
    Enumerates (callAt? block) (calls block) ∧
      ((calls block).Pairwise Call.Leads ↔ ∀ n ∈ scopeNodes block, ¬ n.Overtaken) :=
  ⟨enumerates_calls block, ((row_of_parseModule parsed).listed listed).pairwise_iff⟩

namespace InnerCalls

/-- The argument `b(c())`. -/
def argument : Expr :=
  .call ⟨1, 2⟩ (.name "b" .load) [.call ⟨1, 4⟩ (.name "c" .load) [] []] []

/-- The argument `k=d()`. -/
def named : Keyword :=
  .mk (some "k") (.call ⟨1, 12⟩ (.name "d" .load) [] [])

/-- The statements of a text in which calls stand in a call and in a function. -/
def body : List Stmt :=
  [.expression ⟨1, 1⟩ (.call ⟨1, 0⟩ (.name "a" .load) [argument] [named]),
    .functionDef ⟨2, 3⟩ false "inner" (.mk [] [] none [] none)
      [.expression ⟨3, 3⟩ (.call ⟨3, 4⟩ (.name "e" .load) [] [])] [] none]

/-- These calls are in order, and the one in the function is not among them. -/
theorem calls_ordered_nested :
    parseModule "a(b(c()), k=d())\ndef inner():\n    e()\n" = .ok body ∧
      Enumerates (callAt? body) (calls body) ∧ (calls body).Pairwise Call.Leads ∧
      (calls body).map (·.start) = [⟨1, 0⟩, ⟨1, 2⟩, ⟨1, 4⟩, ⟨1, 12⟩] := by
  have parsed : parseModule "a(b(c()), k=d())\ndef inner():\n    e()\n" = .ok body := rfl
  obtain ⟨all, ordered⟩ := calls_ordered parsed .whole
  have front : ∀ c ∈ (expr argument).calls, ∀ d ∈ (keyword named).calls, c.start ≤ d.start := by
    simp [argument, named, calls_eq, opensScope, children, Expr.children, asCall?, Expr.asCall?,
      Keyword.value, Position.le_iff]
  refine ⟨parsed, all, ordered.mpr ?_, ?_⟩
  · simpa [body, argument, named, scopeNodes, scopeNodes_eq, opensScope, Stmt.opensScope, children,
      Stmt.children, Expr.children, Keyword.value, Overtaken] using front
  · simp [body, argument, named, calls, calls_eq, opensScope, Stmt.opensScope, children,
      Stmt.children, Expr.children, asCall?, Expr.asCall?, Keyword.value]

end InnerCalls

namespace ConditionalCall

/-- The statements of a text with a conditional expression. -/
def body : List Stmt :=
  [.expression ⟨1, 1⟩ (.conditional (.call ⟨1, 7⟩ (.name "g" .load) [] [])
    (.call ⟨1, 0⟩ (.name "f" .load) [] []) (.call ⟨1, 16⟩ (.name "h" .load) [] []))]

/-- The call in the condition is listed in front of the one that is written in front of it. -/
theorem calls_unordered : parseModule "f() if g() else h()\n" = .ok body ∧
    ¬ (calls body).Pairwise Call.Leads := by
  refine ⟨rfl, ?_⟩
  simp [body, calls, calls_eq, opensScope, Stmt.opensScope, children, Stmt.children, Expr.children,
    asCall?, Expr.asCall?, Call.Leads, Position.lt_iff]

end ConditionalCall

end ProbeWeave.Syntax
