import Mathlib.Data.List.Induction
import Mathlib.Data.List.Perm.Basic
import Mathlib.Data.Prod.Lex
import Mathlib.Order.Lattice
import ProbeWeave.Syntax.Block
import ProbeWeave.Syntax.Call

/-! # The order of calls in a tree

`calls` meets every call of a scope once, parts in the order of the fields. Where the parts of each
node stand in the text in an order that the tree tells, this is the order of the text, with a few
exceptions: a conditional expression, an entry of a dictionary, an argument behind a keyword argument
and the key of a pattern can be listed in front of what is written in front of them.
-/

namespace ProbeWeave.Syntax

/-! ### Positions -/

namespace Position

/-- A position as a pair, the line first. -/
def spot (p : Position) : ℕ ×ₗ ℕ :=
  toLex (p.line, p.column)

theorem spot_injective : Function.Injective spot := by
  rintro ⟨line, column⟩ ⟨line', column'⟩ same
  simpa [spot] using same

/-- Positions are ordered as they are read. -/
instance : LinearOrder Position :=
  LinearOrder.lift' spot spot_injective

theorem lt_iff {p q : Position} :
    p < q ↔ p.line < q.line ∨ p.line = q.line ∧ p.column < q.column :=
  Prod.Lex.toLex_lt_toLex

theorem le_iff {p q : Position} :
    p ≤ q ↔ p.line < q.line ∨ p.line = q.line ∧ p.column ≤ q.column :=
  Prod.Lex.toLex_le_toLex

end Position

/-! ### Every call of a scope, once -/

namespace Node

/-- The call at a place of a node: places lead from child to child and into no other scope. -/
def callAt? : List ℕ → Node → Option Call
  | [], n => if n.opensScope then none else n.asCall?
  | i :: path, n => if n.opensScope then none else n.children[i]?.bind (callAt? path)

end Node

/-- The call at a place among statements, which begins with the number of the statement. -/
def callAt? (body : List Stmt) : List ℕ → Option Call
  | [] => none
  | i :: path => body[i]?.bind fun s => (Node.stmt s).callAt? path

/-- Whether calls are those at all places that have one, each place once, in the order of places. -/
def Enumerates (at? : List ℕ → Option Call) (found : List Call) : Prop :=
  ∃ places : List (List ℕ), places.Pairwise (· < ·) ∧ (∀ path, path ∈ places ↔ (at? path).isSome) ∧
    places.map at? = found.map some

/-- What stands at a place below one of several things, which has the number of the thing in front. -/
def below {α : Type} (at? : α → List ℕ → Option Call) (xs : List α) : List ℕ → Option Call
  | [] => none
  | i :: path => xs[i]?.bind (at? · path)

theorem lt_length_of_below {α : Type} {at? : α → List ℕ → Option Call} {xs : List α} {path : List ℕ}
    (filled : (below at? xs path).isSome) : ∃ i tail, path = i :: tail ∧ i < xs.length := by
  cases path with
  | nil => cases filled
  | cons i tail =>
    refine ⟨i, tail, rfl, Nat.lt_of_not_le fun outside => ?_⟩
    simp [below, List.getElem?_eq_none outside] at filled

theorem below_append {α : Type} (at? : α → List ℕ → Option Call) (xs : List α) (x : α) (i : ℕ)
    (path : List ℕ) : below at? (xs ++ [x]) (i :: path) =
      if i = xs.length then at? x path else below at? xs (i :: path) := by
  rcases lt_trichotomy i xs.length with inside | rfl | outside
  · simp [below, List.getElem?_append_left inside, inside.ne]
  · simp [below]
  · have short : (xs ++ [x]).length ≤ i := by
      rw [List.length_append]
      exact outside
    rw [below, below, List.getElem?_eq_none short, List.getElem?_eq_none outside.le,
      if_neg outside.ne']

theorem enumerates_below {α : Type} {at? : α → List ℕ → Option Call} {found : α → List Call}
    {xs : List α} (each : ∀ x ∈ xs, Enumerates (at? x) (found x)) :
    Enumerates (below at? xs) (xs.flatMap found) := by
  induction xs using List.reverseRecOn with
  | nil => exact ⟨[], .nil, fun path => by cases path <;> simp [below], rfl⟩
  | append_singleton xs x ih =>
    obtain ⟨places, ordered, all, same⟩ := ih fun y member => each y (by simp [member])
    obtain ⟨last, lastOrdered, lastAll, lastSame⟩ := each x (by simp)
    -- the last thing has a greater number than those in front of it
    have numbered : ∀ path ∈ places, ∃ i tail, path = i :: tail ∧ i < xs.length :=
      fun path member => lt_length_of_below ((all path).mp member)
    refine ⟨places ++ last.map (xs.length :: ·), ?_, ?_, ?_⟩
    · refine List.pairwise_append.mpr ⟨ordered, ?_, fun a inFront b behind => ?_⟩
      · exact List.pairwise_map.mpr (lastOrdered.imp fun less => List.cons_lt_cons_self.mpr less)
      · obtain ⟨i, tail, rfl, less⟩ := numbered a inFront
        obtain ⟨path, -, rfl⟩ := List.mem_map.mp behind
        exact List.cons_lt_cons_iff.mpr (.inl less)
    · rintro (_ | ⟨i, path⟩)
      · have proper : [] ∉ places := fun member => by simpa [below] using (all []).mp member
        simp [proper, below]
      · rw [below_append]
        split
        · rename_i same
          subst same
          have outside : xs.length :: path ∉ places := fun member => by
            obtain ⟨_, _, ⟨⟩, less⟩ := numbered _ member
            exact Nat.lt_irrefl _ less
          simp [outside, lastAll]
        · rename_i other
          simp [all, Ne.symm other]
    · rw [List.map_append, List.flatMap_append, List.map_append, ← same, List.map_map]
      congr 1
      · refine List.map_congr_left fun path member => ?_
        obtain ⟨i, tail, rfl, less⟩ := numbered path member
        rw [below_append, if_neg less.ne]
      · rw [List.flatMap_singleton, ← lastSame]
        exact List.map_congr_left fun path _ => by rw [Function.comp_apply, below_append, if_pos rfl]

/-- What is found below a node, in front of it nothing or the node itself. -/
theorem Enumerates.root {at? : List ℕ → Option Call} {found : List Call} {here : Option Call}
    (rest : Enumerates at? found) (inside : at? [] = none) :
    Enumerates (fun path => if path = [] then here else at? path) (here.toList ++ found) := by
  obtain ⟨places, ordered, all, same⟩ := rest
  have proper : ∀ path ∈ places, path ≠ [] := by
    rintro _ member rfl
    simpa [inside] using (all []).mp member
  refine ⟨here.toList.map (fun _ => []) ++ places, ?_, fun path => ?_, ?_⟩
  · refine List.pairwise_append.mpr ⟨by cases here <;> simp, ordered, fun a inHere b inPlaces => ?_⟩
    obtain ⟨_, -, rfl⟩ := List.mem_map.mp inHere
    cases b with
    | nil => exact absurd rfl (proper [] inPlaces)
    | cons => exact List.nil_lt_cons _ _
  · by_cases root : path = []
    · subst root
      have outside : [] ∉ places := fun member => proper _ member rfl
      cases here <;> simp [outside]
    · cases here <;> simp [root, all]
  · rw [List.map_append, List.map_append]
    congr 1
    · cases here <;> simp
    · rw [← same]
      exact List.map_congr_left fun path member => if_neg (proper path member)

theorem Node.enumerates_calls (n : Node) : Enumerates (n.callAt? ·) n.calls := by
  induction n using Node.calls.induct with
  | case1 n opened =>
    rw [calls_eq, if_pos opened]
    exact ⟨[], .nil, fun path => by cases path <;> simp [callAt?, opened], rfl⟩
  | case2 n flat ih =>
    rw [calls_eq, if_neg flat]
    have parts : Enumerates (below (fun m path => m.callAt? path) n.children)
        (n.children.flatMap calls) := enumerates_below fun c member => ih c member
    have rooted : Enumerates (fun path => if path = [] then n.asCall? else
        below (fun m path => m.callAt? path) n.children path)
        (n.asCall?.toList ++ n.children.flatMap calls) := parts.root rfl
    convert rooted using 2 with path
    cases path <;> simp [callAt?, below, flat]

/-- The calls of a scope are all the calls in it that no definition and no function without a name
encloses, each one once, in the order of the fields. -/
theorem enumerates_calls (body : List Stmt) : Enumerates (callAt? body) (calls body) := by
  have parts : Enumerates (below (fun s path => (Node.stmt s).callAt? path) body) (calls body) :=
    enumerates_below fun s _ => Node.enumerates_calls _
  have same : callAt? body = below (fun s path => (Node.stmt s).callAt? path) body := by
    funext path
    cases path <;> rfl
  exact same ▸ parts

/-! ### The order of the text -/

/-- Whether a call stands in front of another one: it starts on an earlier position or, at the same
position, around the other one. -/
def Call.Leads (c d : Call) : Prop :=
  c.start < d.start ∨ c.start = d.start ∧ d ∈ (Node.expr c.callee).calls

namespace Node

/-- Whether all calls of one node start in front of all calls of another one. -/
def InFront (a b : Node) : Prop :=
  ∀ c ∈ a.calls, ∀ d ∈ b.calls, c.start < d.start

/-- Whether the parts of a node are written in an order. Arguments of a call and keyword arguments
can be mixed; the other parts have a fixed order, which is not always the one of the fields. -/
def Writes : Node → List Node → Prop
  | expr (.conditional test body otherwise), parts => parts = [expr body, expr test, expr otherwise]
  | expr (.dict items), parts =>
    parts = items.flatMap fun item => item.key?.toList.map expr ++ [expr item.value]
  | expr (.call _ callee arguments keywords), parts =>
    ∃ given, parts = expr callee :: given ∧ given.Perm (arguments.map expr ++ keywords.map keyword) ∧
      (arguments.map expr).Sublist given ∧ (keywords.map keyword).Sublist given
  | pattern (.mapping keys patterns _), parts =>
    ∃ entries : List (Expr × Pattern), keys = entries.map (·.1) ∧ patterns = entries.map (·.2) ∧
      parts = entries.flatMap fun entry => [expr entry.1] ++ [pattern entry.2]
  | n, parts => parts = n.children

/-- The parts of a node that are listed in front of others behind which they are written, if both
hold calls, bring the calls out of order. -/
def Overtaken : Node → Prop
  | expr (.conditional test body _) => (expr test).calls ≠ [] ∧ (expr body).calls ≠ []
  | expr (.dict items) => ∃ i j, [i, j].Sublist items ∧ (expr i.value).calls ≠ [] ∧
    ∃ key ∈ j.key?, (expr key).calls ≠ []
  | expr (.call _ _ arguments keywords) => ∃ a ∈ arguments, ∃ k ∈ keywords,
    ∃ c ∈ (expr a).calls, ∃ d ∈ (keyword k).calls, d.start < c.start
  | pattern (.mapping keys patterns _) => ∃ i j, [i, j].Sublist (keys.zip patterns) ∧
    (pattern i.2).calls ≠ [] ∧ (expr j.1).calls ≠ []
  | _ => False

end Node

/-- Whether a call starts where its callee does and in front of what it is called with. -/
def Call.Opens (c : Call) : Prop :=
  (∀ d ∈ (Node.expr c.callee).calls, c.start ≤ d.start) ∧
    ∀ n ∈ c.arguments.map Node.expr ++ c.keywords.map Node.keyword, ∀ d ∈ n.calls, c.start < d.start

/-- The lists of statements directly in a statement: the body of a definition or the blocks. -/
def Stmt.bodies : Stmt → List (List Stmt)
  | functionDef _ _ _ _ body _ _ | classDef _ _ _ _ body _ => [body]
  | s => s.blocks

namespace Node

/-- The statements of the scope that a definition opens. -/
def inner : Node → List Stmt
  | stmt (.functionDef _ _ _ _ body _ _) | stmt (.classDef _ _ _ _ body _) => body
  | _ => []

/-- Whether the calls at and below a node lie in a text as it is written. -/
inductive Sound : Node → Prop where
  | node {n : Node} {parts : List Node} (flat : n.opensScope = false) (writes : n.Writes parts)
      (ordered : parts.Pairwise InFront) (opens : ∀ c ∈ n.asCall?, c.Opens)
      (below : ∀ part ∈ n.children, part.Sound) : n.Sound
  | scope {n : Node} (opened : n.opensScope = true) (ordered : (n.inner.map stmt).Pairwise InFront)
      (below : ∀ s ∈ n.inner, (stmt s).Sound) : n.Sound

/-- Two things of a list stand one in front of the other, or are the same. -/
theorem pair_sublist {α : Type} {a b : α} {xs : List α} (inA : a ∈ xs) (inB : b ∈ xs) :
    a = b ∨ [a, b].Sublist xs ∨ [b, a].Sublist xs := by
  induction xs with
  | nil => cases inA
  | cons x rest ih =>
    rcases List.mem_cons.mp inA with rfl | behind
    · rcases List.mem_cons.mp inB with rfl | inB
      · exact .inl rfl
      · exact .inr (.inl (.cons_cons _ (List.singleton_sublist.mpr inB)))
    · rcases List.mem_cons.mp inB with rfl | inB
      · exact .inr (.inr (.cons_cons _ (List.singleton_sublist.mpr behind)))
      · exact (ih behind inB).imp id (Or.imp (·.cons _) (·.cons _))

/-- Whether one of two nodes stands in front of the other. -/
def Apart (a b : Node) : Prop :=
  InFront a b ∨ InFront b a

theorem Apart.symm {a b : Node} (apart : Apart a b) : Apart b a :=
  Or.symm apart

/-- Calls of nodes that are apart lead each other only as the nodes do. -/
theorem Apart.leads_iff {a b : Node} (apart : Apart a b) :
    (∀ c ∈ a.calls, ∀ d ∈ b.calls, c.Leads d) ↔ InFront a b := by
  refine ⟨fun leads c inA d inB => ?_, fun front c inA d inB => .inl (front c inA d inB)⟩
  rcases apart with front | behind
  · exact front c inA d inB
  · have less := behind d inB c inA
    rcases leads c inA d inB with greater | ⟨same, -⟩
    · exact absurd less greater.asymm
    · exact absurd same less.ne'

/-- The calls of nodes that are apart are in order if those of each are and the nodes are. -/
theorem pairwise_flatMap_calls {ns : List Node} (apart : ns.Pairwise Apart) :
    (ns.flatMap calls).Pairwise Call.Leads ↔
      (∀ n ∈ ns, n.calls.Pairwise Call.Leads) ∧ ns.Pairwise InFront := by
  rw [List.pairwise_flatMap]
  refine and_congr_right fun _ => ⟨fun leads => ?_, fun front => ?_⟩
  · exact (apart.and leads).imp fun ⟨apart, leads⟩ => apart.leads_iff.mp leads
  · exact front.imp fun front c inA d inB => .inl (front c inA d inB)

theorem InFront.swapped_iff {a b : Node} (behind : InFront b a) :
    InFront a b ↔ ¬ (a.calls ≠ [] ∧ b.calls ≠ []) := by
  constructor
  · rintro ahead ⟨some, other⟩
    obtain ⟨c, inA⟩ := List.exists_mem_of_ne_nil _ some
    obtain ⟨d, inB⟩ := List.exists_mem_of_ne_nil _ other
    exact (ahead c inA d inB).asymm (behind d inB c inA)
  · exact fun none c inA d inB => absurd ⟨List.ne_nil_of_mem inA, List.ne_nil_of_mem inB⟩ none

/-! ### Entries -/

section Entries

variable {ι : Type} {front : ι → List Node} {back : ι → Node} {entries : List ι}

/-- Entries are written one by one, but the fronts of all are listed before the backs of all. -/
theorem perm_entries : (entries.flatMap fun i => front i ++ [back i]).Perm
    (entries.flatMap front ++ entries.map back) := by
  rw [List.map_eq_flatMap]
  exact (List.flatMap_append_perm entries front _).symm

/-- The order of such a list is the one of the text unless a front is listed before the back of an
earlier entry, and both hold calls. -/
theorem pairwise_entries
    (ordered : (entries.flatMap fun i => front i ++ [back i]).Pairwise InFront) :
    (entries.flatMap front ++ entries.map back).Pairwise InFront ↔
      ¬ ∃ i j, [i, j].Sublist entries ∧ (back i).calls ≠ [] ∧ ∃ n ∈ front j, n.calls ≠ [] := by
  obtain ⟨within, across⟩ := List.pairwise_flatMap.mp ordered
  have follows {i j : ι} (pair : [i, j].Sublist entries) :=
    List.pairwise_iff_forall_sublist.mp across pair
  constructor
  · rintro listed ⟨i, j, pair, someBack, n, inFront, someFront⟩
    obtain ⟨c, inBack⟩ := List.exists_mem_of_ne_nil _ someBack
    obtain ⟨d, inside⟩ := List.exists_mem_of_ne_nil _ someFront
    have members := pair.subset
    have ahead : InFront n (back i) := (List.pairwise_append.mp listed).2.2 n
      (List.mem_flatMap.mpr ⟨j, members (by simp), inFront⟩) _
      (List.mem_map_of_mem (members (by simp)))
    have behind : InFront (back i) n := follows pair _ (by simp) n (by simp [inFront])
    exact (ahead d inside c inBack).asymm (behind c inBack d inside)
  · intro none
    refine List.pairwise_append.mpr ⟨?_, ?_, fun n inFronts m inBacks => ?_⟩
    · refine List.pairwise_flatMap.mpr ⟨fun i member => ?_, across.imp fun ahead x inX y inY => ?_⟩
      · exact (List.pairwise_append.mp (within i member)).1
      · exact ahead x (List.mem_append_left _ inX) y (List.mem_append_left _ inY)
    · exact List.pairwise_map.mpr (across.imp fun ahead => ahead _ (by simp) _ (by simp))
    · obtain ⟨j, inJ, inFront⟩ := List.mem_flatMap.mp inFronts
      obtain ⟨i, inI, rfl⟩ := List.mem_map.mp inBacks
      rcases pair_sublist inI inJ with rfl | pair | pair
      · exact (List.pairwise_append.mp (within i inI)).2.2 n inFront _ (by simp)
      · exact fun c inC d inD => absurd
          ⟨i, j, pair, List.ne_nil_of_mem inD, n, inFront, List.ne_nil_of_mem inC⟩ none
      · exact follows pair n (by simp [inFront]) _ (by simp)

end Entries

theorem children_dict (items : List DictItem) : (expr (.dict items)).children =
    items.flatMap (fun item => item.key?.toList.map expr) ++ items.map (expr ·.value) := by
  simp only [children, Expr.children, List.filterMap_eq_flatMap_toList, List.map_flatMap]

theorem children_mapping (entries : List (Expr × Pattern)) (rest : Option String) :
    (pattern (.mapping (entries.map (·.1)) (entries.map (·.2)) rest)).children =
      entries.flatMap (fun entry => [expr entry.1]) ++ entries.map (pattern ·.2) := by
  simp only [children, Pattern.children, List.map_map, ← List.map_eq_flatMap, Function.comp_def]

namespace Writes

variable {n : Node} {parts : List Node}

/-- All parts are written. -/
theorem perm (writes : n.Writes parts) : parts.Perm n.children := by
  unfold Writes at writes
  split at writes
  · exact writes ▸ .swap _ _ _
  · exact writes ▸ children_dict _ ▸ perm_entries
  · obtain ⟨given, rfl, perm, -, -⟩ := writes
    exact perm.cons _
  · obtain ⟨entries, rfl, rfl, rfl⟩ := writes
    exact children_mapping entries _ ▸ perm_entries
  · exact .of_eq writes

/-- The parts are listed in the order in which they are written if none is overtaken. -/
theorem pairwise_iff (writes : n.Writes parts) (ordered : parts.Pairwise InFront) :
    n.children.Pairwise InFront ↔ ¬ n.Overtaken := by
  unfold Writes at writes
  split at writes
  · rename_i test body otherwise
    subst writes
    obtain ⟨front, behind⟩ := List.pairwise_cons.mp ordered
    obtain ⟨last, -⟩ := List.pairwise_cons.mp behind
    have listed : (expr (.conditional test body otherwise)).children.Pairwise InFront ↔
        InFront (expr test) (expr body) := by
      simp [children, Expr.children, front, last]
    rw [listed]
    exact (front (expr test) (by simp)).swapped_iff
  · rename_i items
    subst writes
    rw [children_dict, pairwise_entries ordered]
    simp [Overtaken]
  · rename_i start callee arguments keywords
    obtain ⟨given, rfl, perm, positions, names⟩ := writes
    obtain ⟨front, mixed⟩ := List.pairwise_cons.mp ordered
    have front : ∀ n ∈ arguments.map expr ++ keywords.map keyword, InFront (expr callee) n :=
      fun n member => front n (perm.mem_iff.mpr member)
    have listed : (expr (.call start callee arguments keywords)).children.Pairwise InFront ↔
        ∀ a ∈ arguments, ∀ k ∈ keywords, InFront (expr a) (keyword k) := by
      rw [children, Expr.children, List.pairwise_cons, and_iff_right front, List.pairwise_append,
        and_iff_right (mixed.sublist positions), and_iff_right (mixed.sublist names)]
      simp
    have apart : ∀ a ∈ arguments, ∀ k ∈ keywords, Apart (expr a) (keyword k) := by
      intro a inArguments k inKeywords
      have inA := perm.mem_iff.mpr (List.mem_append_left _ (List.mem_map_of_mem (f := expr) inArguments))
      have inK := perm.mem_iff.mpr
        (List.mem_append_right _ (List.mem_map_of_mem (f := keyword) inKeywords))
      rcases pair_sublist inA inK with same | pair | pair
      · cases same
      · exact .inl (List.pairwise_iff_forall_sublist.mp mixed pair)
      · exact .inr (List.pairwise_iff_forall_sublist.mp mixed pair)
    rw [listed]
    constructor
    · rintro ahead ⟨a, inArguments, k, inKeywords, c, inA, d, inK, less⟩
      exact less.asymm (ahead a inArguments k inKeywords c inA d inK)
    · intro none a inArguments k inKeywords
      refine (apart a inArguments k inKeywords).elim id fun behind c inA d inK => ?_
      exact absurd ⟨a, inArguments, k, inKeywords, c, inA, d, inK, behind d inK c inA⟩ none
  · obtain ⟨entries, rfl, rfl, rfl⟩ := writes
    rw [children_mapping, pairwise_entries ordered]
    have zipped : entries = (entries.map (·.1)).zip (entries.map (·.2)) := List.zip_of_prod rfl rfl
    simp [Overtaken, ← zipped]
  · subst writes
    refine iff_of_true ordered ?_
    unfold Overtaken
    split <;> grind

end Writes

theorem not_overtaken_of_opensScope {n : Node} (opened : n.opensScope = true) : ¬ n.Overtaken := by
  unfold Overtaken
  split <;> first | exact id | cases opened

/-- The call that a node is leads the calls below it. -/
theorem leads_of_opens {n : Node} (opens : ∀ c ∈ n.asCall?, c.Opens) :
    ∀ c ∈ n.asCall?, ∀ d ∈ n.children.flatMap calls, c.Leads d := by
  intro c found d member
  obtain ⟨called, given⟩ := opens c found
  obtain ⟨part, listed, inside⟩ := List.mem_flatMap.mp member
  match n, found with
  | expr (.call start callee arguments keywords), rfl =>
    rcases List.mem_cons.mp listed with rfl | listed
    · exact (called d inside).lt_or_eq.imp id fun same => ⟨same, inside⟩
    · exact .inl (given part listed d inside)

/-- Below a node as written, the calls are in the order of the text if nothing is overtaken. -/
theorem Sound.pairwise_iff {n : Node} (sound : n.Sound) :
    n.calls.Pairwise Call.Leads ↔ ∀ m ∈ n.scopeNodes, ¬ m.Overtaken := by
  induction sound with
  | @node n parts flat writes ordered opens _ ih =>
    have apart := (writes.perm.pairwise_iff Apart.symm).mp (ordered.imp Or.inl)
    have first : ∀ c ∈ n.asCall?.toList, ∀ d ∈ n.children.flatMap calls, c.Leads d :=
      fun c found => leads_of_opens opens c (by simpa using found)
    have alone : n.asCall?.toList.Pairwise Call.Leads := by cases n.asCall? <;> simp
    rw [calls_eq, scopeNodes_eq, if_neg (by simp [flat]), if_neg (by simp [flat]),
      List.pairwise_append, and_iff_right alone, and_iff_left first, pairwise_flatMap_calls apart,
      writes.pairwise_iff ordered, List.forall_mem_cons, and_comm]
    simp only [List.forall_mem_flatMap]
    exact and_congr_right fun _ => forall₂_congr ih
  | scope opened =>
    rw [calls_eq, scopeNodes_eq, if_pos opened, if_pos opened]
    simp [not_overtaken_of_opensScope opened]

end Node

/-! ### Lists of statements -/

/-- Whether statements follow one another in a text and the calls in each lie as written. -/
structure Row (block : List Stmt) : Prop where
  ordered : (block.map Node.stmt).Pairwise Node.InFront
  sound : ∀ s ∈ block, (Node.stmt s).Sound

namespace Row

variable {block part : List Stmt}

theorem pairwise_iff (row : Row block) :
    (calls block).Pairwise Call.Leads ↔ ∀ n ∈ scopeNodes block, ¬ n.Overtaken := by
  have separate : (calls block) = (block.map Node.stmt).flatMap Node.calls := by
    rw [calls, List.flatMap_map]
  rw [separate, Node.pairwise_flatMap_calls (row.ordered.imp Or.inl), and_iff_left row.ordered]
  simp only [List.forall_mem_map, scopeNodes, List.forall_mem_flatMap]
  exact forall₂_congr fun s member => (row.sound s member).pairwise_iff

/-- A part of such statements is such a list as well. -/
theorem sublist (row : Row block) (kept : part.Sublist block) : Row part :=
  ⟨row.ordered.sublist (kept.map _), fun s member => row.sound s (kept.subset member)⟩

/-- The statements among the parts of a node that opens no scope. -/
theorem of_node {n : Node} (sound : n.Sound) (flat : n.opensScope = false)
    (plain : ∀ parts, n.Writes parts → parts = n.children)
    (inside : (part.map Node.stmt).Sublist n.children) : Row part := by
  cases sound with
  | node _ writes ordered _ below =>
    obtain rfl := plain _ writes
    refine ⟨ordered.sublist inside, fun s member => below _ (inside.subset ?_)⟩
    exact List.mem_map_of_mem member
  | scope opened => simp [flat] at opened

end Row

theorem Node.Sound.part {n part : Node} (sound : n.Sound) (flat : n.opensScope = false)
    (member : part ∈ n.children) : part.Sound := by
  cases sound with
  | node _ _ _ _ below => exact below _ member
  | scope opened => simp [flat] at opened

/-- The statements of the scope that a definition opens. -/
theorem Node.Sound.row_inner {n : Node} (sound : n.Sound) (opened : n.opensScope = true) :
    Row n.inner := by
  cases sound with
  | node flat => simp [opened] at flat
  | scope _ ordered below => exact ⟨ordered, below⟩

theorem sublist_of_mem_pair {inner body otherwise : List Stmt} (member : inner ∈ [body, otherwise]) :
    (inner.map Node.stmt).Sublist ((body ++ otherwise).map Node.stmt) := by
  rcases List.mem_pair.mp member with rfl | rfl
  · exact (List.sublist_append_left _ _).map _
  · exact (List.sublist_append_right _ _).map _

/-- The blocks of a statement and the bodies of definitions are such lists. -/
theorem Node.Sound.row {s : Stmt} {inner : List Stmt} (sound : (Node.stmt s).Sound)
    (directly : inner ∈ s.bodies) : Row inner := by
  cases s with
  | functionDef | classDef =>
    obtain rfl : inner = _ := List.mem_singleton.mp directly
    exact sound.row_inner rfl
  | forLoop _ _ target source body otherwise =>
    exact .of_node sound rfl (fun _ writes => writes)
      (.trans (sublist_of_mem_pair directly) (List.sublist_append_right [_, _] _))
  | whileLoop _ test body otherwise | branch _ test body otherwise =>
    exact .of_node sound rfl (fun _ writes => writes)
      (.trans (sublist_of_mem_pair directly) (List.sublist_append_right [_] _))
  | withBlock =>
    obtain rfl : inner = _ := List.mem_singleton.mp directly
    exact .of_node sound rfl (fun _ writes => writes) (by simp [children, Stmt.children])
  | matchBlock _ _ cases =>
    obtain ⟨⟨pattern, guard, body⟩, member, rfl⟩ := List.mem_map.mp directly
    have here : (matchCase (.mk pattern guard body)).Sound :=
      sound.part rfl (by simp [children, Stmt.children, member])
    exact .of_node here rfl (fun _ writes => writes) (by simp [children, Case.body])
  | tryBlock lines isGroup body handlers otherwise final =>
    have blocks (all : List Stmt) (listed : (all.map stmt).Sublist (Stmt.children
        (.tryBlock lines isGroup body handlers otherwise final))) : Row all :=
      .of_node sound rfl (fun _ writes => writes) listed
    simp only [Stmt.bodies, Stmt.blocks, List.cons_append, List.nil_append, List.mem_cons,
      List.mem_map] at directly
    rcases directly with rfl | rfl | rfl | ⟨⟨type, id, body⟩, member, rfl⟩
    · exact blocks _ (.trans (List.sublist_append_left _ _) (List.sublist_append_left _ _))
    · exact blocks _ (.trans ((List.sublist_append_left _ _).map _) (List.sublist_append_right _ _))
    · exact blocks _ (.trans ((List.sublist_append_right _ _).map _) (List.sublist_append_right _ _))
    · have here : (handler (.mk type id body)).Sound :=
        sound.part rfl (by simp [children, Stmt.children, member])
      exact .of_node here rfl (fun _ writes => writes) (List.sublist_append_right _ _)
  | _ => cases directly

/-- The lists of statements of a module: its own one, those in the statements of such a list, and
parts of such lists. -/
inductive ListedIn (body : List Stmt) : List Stmt → Prop where
  | whole : ListedIn body body
  | inside {block inner : List Stmt} {s : Stmt} (outside : ListedIn body block) (member : s ∈ block)
      (directly : inner ∈ s.bodies) : ListedIn body inner
  | part {block part : List Stmt} (whole : ListedIn body block) (kept : part.Sublist block) :
      ListedIn body part

theorem Row.listed {body block : List Stmt} (row : Row body) (listed : ListedIn body block) :
    Row block := by
  induction listed with
  | whole => exact row
  | inside _ member directly ih => exact (ih.sound _ member).row directly
  | part _ kept ih => exact ih.sublist kept

end ProbeWeave.Syntax
