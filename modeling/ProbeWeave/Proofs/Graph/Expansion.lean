import Mathlib
import ProbeWeave.Proofs.Graph.Closure
import ProbeWeave.Proofs.Graph.Occurrence

/-! # Where a routine is expanded

In a call graph a routine is expanded at the node where it occurs first, the children of that node
are its callees, and all its later nodes are leaves. The argument follows the search: what a search
meets as visited is what was visited before it and the routines of the nodes that it has made. The
number of nodes follows, because every node but the root is a child of one that is expanded.
-/

namespace ProbeWeave.Graph

open Outcome

namespace CallTree

/-- The node at which a routine occurs first in a graph. -/
def expansion? (t : CallTree) (r : Routine) : Option CallTree :=
  t.walk.find? fun node => node.routine == r

/-- Routines not visited before have their callees below the first of their nodes. -/
def Expands (callees : Routine → List Routine) (visited : List Routine) (trees : List CallTree) :
    Prop :=
  ∀ r, r ∉ visited → ∀ node, (walkAll trees).find? (fun node => node.routine == r) = some node →
    node.children.map routine = callees r

/-- Whether the first of the nodes of a routine that was not visited has its callees below it, and
every other node is a leaf. -/
def FirstExpanded (callees : Routine → List Routine) : List Routine → List CallTree → Prop
  | _, [] => True
  | visited, n :: nodes =>
    n.children.map routine = (if n.routine ∈ visited then [] else callees n.routine) ∧
      FirstExpanded callees (n.routine :: visited) nodes

variable {callees : Routine → List Routine} {all : List Routine}

namespace FirstExpanded

variable {visited visited' : List Routine} {front nodes : List CallTree}

theorem leaf {r : Routine} (old : r ∈ visited) :
    FirstExpanded callees visited (walkAll [node r []]) :=
  ⟨(if_pos old).symm, trivial⟩

/-- It only matters which routines were visited. -/
theorem congr (expanded : FirstExpanded callees visited nodes)
    (same : ∀ r, r ∈ visited ↔ r ∈ visited') : FirstExpanded callees visited' nodes := by
  induction nodes generalizing visited visited' with
  | nil => trivial
  | cons n nodes ih =>
    obtain ⟨here, later⟩ := expanded
    refine ⟨by simpa only [same] using here, ih later fun r => ?_⟩
    rw [List.mem_cons, List.mem_cons, same]

/-- Behind some nodes their routines count as visited. -/
theorem append_iff : FirstExpanded callees visited (front ++ nodes) ↔
    FirstExpanded callees visited front ∧
      FirstExpanded callees ((front.map routine).reverse ++ visited) nodes := by
  induction front generalizing visited with
  | nil => simp [FirstExpanded]
  | cons n rest ih =>
    rw [List.cons_append, FirstExpanded, FirstExpanded, ih, List.map_cons, List.reverse_cons,
      List.append_assoc, and_assoc]
    rfl

/-- A node is expanded if its routine is new there, and a leaf otherwise. -/
theorem at_node {n : CallTree} {back : List CallTree}
    (expanded : FirstExpanded callees visited (front ++ n :: back)) :
    n.children.map routine =
      if n.routine ∈ visited ∨ n.routine ∈ front.map routine then [] else callees n.routine := by
  obtain ⟨here, -⟩ := (append_iff.mp expanded).2
  simpa only [List.mem_append, List.mem_reverse, or_comm] using here

theorem expands {trees : List CallTree} (expanded : FirstExpanded callees visited (walkAll trees)) :
    Expands callees visited trees := by
  intro r new node found
  obtain ⟨same, front, back, divided, others⟩ := List.find?_eq_some_iff_append.mp found
  obtain rfl := eq_of_beq same
  have first : node.routine ∉ front.map routine := by
    rintro member
    obtain ⟨other, earlier, same⟩ := List.mem_map.mp member
    simpa [same] using others other earlier
  rw [divided] at expanded
  exact expanded.at_node.trans (if_neg (not_or.mpr ⟨new, first⟩))

/-- All nodes have as many children together as the new routines among them have callees. -/
theorem sum_children (expanded : FirstExpanded callees visited nodes) :
    (nodes.map fun n => n.children.length).sum =
      (((distinct (nodes.map routine)).filter (· ∉ visited)).map fun r => (callees r).length).sum := by
  induction nodes generalizing visited with
  | nil => rfl
  | cons n nodes ih =>
    obtain ⟨here, later⟩ := expanded
    have others : ((distinct (nodes.map routine)).filter (· != n.routine)).filter (· ∉ visited) =
        (distinct (nodes.map routine)).filter (· ∉ n.routine :: visited) := by
      rw [List.filter_filter]
      refine List.filter_congr fun r _ => ?_
      by_cases same : r = n.routine <;> simp [same]
    have count : n.children.length = if n.routine ∈ visited then 0 else (callees n.routine).length := by
      rw [← List.length_map (f := routine), here]
      split <;> rfl
    rw [List.map_cons, List.sum_cons, List.map_cons, distinct, List.filter_cons, others, ih later, count]
    by_cases old : n.routine ∈ visited <;> simp [old]

end FirstExpanded

theorem followEach_expanded {follow : List Routine → Routine → CallTree × List Routine} {limit : ℕ}
    (each : ∀ visited r, r ∈ all → room all visited ≤ limit →
      Explores callees visited (occurrences [(follow visited r).1]) (follow visited r).2 ∧
        FirstExpanded callees visited (walkAll [(follow visited r).1]))
    {rs : List Routine} (inside : rs ⊆ all) (visited : List Routine)
    (enough : room all visited ≤ limit) :
    FirstExpanded callees visited (walkAll (followEach follow visited rs).1) := by
  induction rs generalizing visited with
  | nil => trivial
  | cons r rest ih =>
    obtain ⟨member, others⟩ := List.cons_subset.mp inside
    obtain ⟨explored, expanded⟩ := each visited r member enough
    have later := ih others _ ((room_le_of_subset explored.keeps).trans enough)
    rw [walkAll, walkAll, List.append_nil] at expanded
    refine FirstExpanded.append_iff.mpr ⟨expanded, later.congr fun x => ?_⟩
    have nodes : occurrences [(follow visited r).1] = (follow visited r).1.walk.map routine := by
      simp [occurrences, walkAll]
    rw [List.mem_append, List.mem_reverse, ← nodes]
    constructor
    · exact fun known => (explored.only x known).symm
    · rintro (occurs | old)
      exacts [explored.adds occurs, explored.keeps old]

/-- Following a routine expands every new routine where it is met first, if the bound leaves room. -/
theorem follow_expanded (closed : ∀ r ∈ all, callees r ⊆ all) {bound : Nat} {visited : List Routine}
    {r : Routine} (member : r ∈ all) (enough : room all visited ≤ bound) :
    FirstExpanded callees visited (walkAll [(follow callees bound visited r).1]) := by
  induction bound generalizing visited r with
  | zero => exact .leaf (mem_of_room_eq_zero member (by omega))
  | succ bound ih =>
    rw [follow]
    split
    · rename_i old
      exact .leaf (by simpa using old)
    · rename_i new
      have new : r ∉ visited := by simpa using new
      have less := room_cons_lt member new
      have below := followEach_expanded (fun visited r member enough =>
        ⟨follow_explores closed member enough, ih member enough⟩)
        (closed r member) (r :: visited) (by omega)
      simp only [walkAll, walk, List.append_nil]
      exact ⟨(followEach_roots bound (r :: visited) (callees r)).trans (if_neg new).symm, below⟩

theorem walkAll_node (r : Routine) (children stack : List CallTree) :
    walkAll (node r children :: stack) = node r children :: walkAll (children ++ stack) := by
  rw [walkAll, walk, walkAll_append, List.cons_append]

/-- Every node but the roots is a child. -/
theorem length_walkAll (ts : List CallTree) :
    (walkAll ts).length = ts.length + ((walkAll ts).map fun n => n.children.length).sum := by
  induction ts using walkStack.induct with
  | case1 => rfl
  | case2 r children stack ih =>
    rw [walkAll_node, List.length_cons, List.map_cons, List.sum_cons, ih, List.length_append,
      List.length_cons, CallTree.children]
    omega

/-- A node is one of the roots or a child. -/
theorem root_or_child {ts : List CallTree} {n : CallTree} (inside : n ∈ walkAll ts) :
    n ∈ ts ∨ ∃ parent ∈ walkAll ts, n ∈ parent.children := by
  induction ts using walkStack.induct with
  | case1 => cases inside
  | case2 r children stack ih =>
    rw [walkAll_node] at inside ⊢
    rcases List.mem_cons.mp inside with rfl | below
    · exact .inl List.mem_cons_self
    · rcases ih below with root | ⟨parent, met, child⟩
      · rcases List.mem_append.mp root with child | root
        · exact .inr ⟨_, List.mem_cons_self, child⟩
        · exact .inl (List.mem_cons_of_mem _ root)
      · exact .inr ⟨parent, List.mem_cons_of_mem _ met, child⟩

theorem child_of_below {t n : CallTree} (below : n ∈ walkAll t.children) :
    ∃ parent ∈ t.walk, n ∈ parent.children := by
  obtain ⟨r, children⟩ := t
  rw [walk]
  rcases root_or_child below with child | ⟨parent, met, child⟩
  · exact ⟨_, List.mem_cons_self, child⟩
  · exact ⟨parent, List.mem_cons_of_mem _ met, child⟩

/-- A routine of a graph has a first node there. -/
theorem expansion?_of_mem {t : CallTree} {r : Routine} (inGraph : r ∈ t.routines) :
    ∃ node ∈ t.walk, t.expansion? r = some node ∧ node.routine = r := by
  obtain ⟨other, member, same⟩ := List.mem_map.mp (mem_routines.mp inGraph)
  simp only [walkAll, List.append_nil] at member
  cases found : t.expansion? r with
  | none => exact absurd same (by simpa using List.find?_eq_none.mp found other member)
  | some node =>
    exact ⟨node, List.mem_of_find?_eq_some found, rfl, by simpa using List.find?_some found⟩

theorem mem_walkAll_self {t : CallTree} {ts : List CallTree} (member : t ∈ ts) : t ∈ walkAll ts := by
  induction ts with
  | nil => cases member
  | cons first rest ih =>
    rw [walkAll]
    rcases List.mem_cons.mp member with rfl | member
    · cases t
      simp [walk]
    · exact List.mem_append_right _ (ih member)

mutual

/-- The children of a node are below the root. -/
theorem child_mem_walkAll {t n child : CallTree} (inside : n ∈ t.walk) (below : child ∈ n.children) :
    child ∈ walkAll t.children := by
  obtain ⟨r, children⟩ := t
  rw [walk] at inside
  rcases List.mem_cons.mp inside with rfl | inside
  · exact mem_walkAll_self below
  · exact child_mem_walkAll_of_walkAll inside below

/-- The children of a node at or below several ones are so, too. -/
theorem child_mem_walkAll_of_walkAll {ts : List CallTree} {n child : CallTree}
    (inside : n ∈ walkAll ts) (below : child ∈ n.children) : child ∈ walkAll ts := by
  cases ts with
  | nil => cases inside
  | cons t rest =>
    rw [walkAll] at inside ⊢
    rcases List.mem_append.mp inside with inside | inside
    · have deeper := child_mem_walkAll inside below
      obtain ⟨r, children⟩ := t
      exact List.mem_append_left _ (List.mem_cons_of_mem _ deeper)
    · exact List.mem_append_right _ (child_mem_walkAll_of_walkAll inside below)

end

end CallTree

namespace ProgramModel

variable {ε : Type} {m : ProgramModel ε} {exclusions : List String}

theorem reach_expanded (entry : Routine) :
    CallTree.FirstExpanded (m.calleesOrNone exclusions) []
      (CallTree.walkAll
        [CallTree.reach (m.calleesOrNone exclusions) m.routines.length entry]) := by
  apply CallTree.follow_expanded (fun r _ => calleesOrNone_subset entry r) List.mem_cons_self
  exact CallTree.room_nil_le.trans (by simp)

/-- Every routine of a recursive graph is expanded at its first node to its callees. -/
theorem callGraph_expands {entry r : Routine} {graph : CallTree}
    (success : m.callGraph exclusions true entry = .ok graph) (inGraph : r ∈ graph.routines) :
    ∃ node ∈ graph.walk, graph.expansion? r = some node ∧
      m.callees exclusions r = .ok (node.children.map CallTree.routine) := by
  obtain ⟨built, told⟩ := callGraph_eq_ok.mp success
  simp only [if_true] at built told
  obtain ⟨targets, found⟩ := told r inGraph
  obtain ⟨node, inside, first, -⟩ := CallTree.expansion?_of_mem inGraph
  refine ⟨node, inside, first, ?_⟩
  subst built
  have children : node.children.map CallTree.routine = m.calleesOrNone exclusions r := by
    refine (reach_expanded entry).expands r (by simp) node ?_
    rw [CallTree.walkAll, CallTree.walkAll, List.append_nil]
    exact first
  rw [children, calleesOrNone_of_found found, found]

/-- The shape of a recursive call graph.

Where a routine occurs first it is expanded to its callees, one child for each kept call, and
wherever it occurs again it is a leaf; so there are as many nodes below the root as the routines of
the graph have kept calls. All of them are the program's own and not left out. -/
theorem callGraph_shape {entry : Routine} {graph : CallTree}
    (success : m.callGraph exclusions true entry = .ok graph) :
    graph.routine = entry ∧
    (∀ front node back, graph.walk = front ++ node :: back →
      (node.routine ∉ front.map CallTree.routine →
        m.callees exclusions node.routine = .ok (node.children.map CallTree.routine)) ∧
      (node.routine ∈ front.map CallTree.routine → node.children = [])) ∧
    (∃ targets : Routine → List Routine,
      (∀ r ∈ graph.routines, m.callees exclusions r = .ok (targets r)) ∧
      graph.walk.length = 1 + (graph.routines.map fun r => (targets r).length).sum) ∧
    ∀ node ∈ CallTree.walkAll graph.children,
      m.owns node.routine = true ∧ node.routine.matchesAny exclusions = false := by
  obtain ⟨built, told⟩ := callGraph_eq_ok.mp success
  simp only [if_true] at built told
  have found : ∀ r ∈ graph.routines, m.callees exclusions r = .ok (m.calleesOrNone exclusions r) := by
    intro r inGraph
    obtain ⟨targets, found⟩ := told r inGraph
    rw [calleesOrNone_of_found found, found]
  have walked : CallTree.walkAll [graph] = graph.walk := by
    rw [CallTree.walkAll, CallTree.walkAll, List.append_nil]
  have expanded : CallTree.FirstExpanded (m.calleesOrNone exclusions) [] graph.walk := by
    rw [← walked, built]
    exact reach_expanded entry
  refine ⟨?root, fun front node back divided => ⟨fun new => ?first, fun old => ?again⟩,
    ⟨_, found, ?count⟩, fun node below => ?kept⟩
  case root =>
    rw [built]
    exact CallTree.follow_root _ _ _
  case first =>
    have inGraph : node.routine ∈ graph.routines := by
      refine CallTree.mem_routines.mpr (List.mem_map_of_mem ?_)
      simp [walked, divided]
    rw [divided] at expanded
    rw [expanded.at_node, if_neg (by simpa using new), found _ inGraph]
  case again =>
    rw [divided] at expanded
    exact List.map_eq_nil_iff.mp (expanded.at_node.trans (if_pos (.inr old)))
  case count =>
    have sum := expanded.sum_children
    rw [List.filter_eq_self.mpr (by simp)] at sum
    rw [← walked, CallTree.length_walkAll, walked, sum]
    rfl
  case kept =>
    -- A node below the root is a child, and only routines that are new have children.
    obtain ⟨parent, met, child⟩ := CallTree.child_of_below below
    obtain ⟨front, back, divided⟩ := List.append_of_mem met
    rw [divided] at expanded
    have target := expanded.at_node ▸ List.mem_map_of_mem (f := CallTree.routine) child
    split at target
    · cases target
    · obtain ⟨-, -, -, owned, included⟩ := calls_of_mem_calleesOrNone target
      exact ⟨owned, included⟩

end ProgramModel

/-! Two routines call a third one; one of them calls the first routine again, the third one itself. -/

namespace SharedCallee

open Syntax

def run : Routine := ⟨"m", 0, none, "run", 1⟩
def left : Routine := ⟨"m", 1, none, "left", 6⟩
def right : Routine := ⟨"m", 2, none, "right", 10⟩
def shared : Routine := ⟨"m", 3, none, "shared", 15⟩
def main : Routine := ⟨"m", 4, none, "main", 19⟩

/-- A statement that calls a function without arguments. -/
def calling (line : Nat) (name : String) : Stmt :=
  .expression ⟨line, line⟩ (.call ⟨line, 4⟩ (.name name .load) [] [])

def body (r : Routine) : List Stmt :=
  match r.name with
  | "run" => [calling 2 "left", calling 3 "right", calling 4 "left"]
  | "left" => [calling 7 "shared", calling 8 "main"]
  | "right" => [calling 11 "shared", calling 12 "run", calling 13 "print"]
  | "shared" => [calling 16 "shared", calling 17 "left"]
  | _ => []

def target? (call : Call) : Option Routine :=
  match call.callee with
  | .name id _ => [run, left, right, shared, main].find? (·.name == id)
  | _ => none

def model : ProgramModel Empty where
  routines := [run, left, right, shared, main]
  body := body
  target? _ call := .ok (target? call)
  owns _ := true
  target_mem {_ call t} told := by
    have found := Except.ok.inj told
    unfold target? at found
    split at found
    · exact List.mem_of_find?_eq_some found
    · cases found

/-- The call of a function without arguments. -/
def call (line : Nat) (name : String) : Call :=
  ⟨⟨line, 4⟩, .name name .load, [], []⟩

/-- The calls of `main` and `print` are not kept. -/
def targets (r : Routine) : List Routine :=
  match r.name with
  | "run" => [left, right, left]
  | "left" => [shared]
  | "right" => [shared, run]
  | "shared" => [shared, left]
  | _ => []

theorem callees_eq (r : Routine) : model.callees ["main"] r = .ok (targets r) := by
  have ofRun : calls [calling 2 "left", calling 3 "right", calling 4 "left"] =
      [call 2 "left", call 3 "right", call 4 "left"] := by cbv
  have ofLeft : calls [calling 7 "shared", calling 8 "main"] =
      [call 7 "shared", call 8 "main"] := by cbv
  have ofRight : calls [calling 11 "shared", calling 12 "run", calling 13 "print"] =
      [call 11 "shared", call 12 "run", call 13 "print"] := by cbv
  have ofShared : calls [calling 16 "shared", calling 17 "left"] =
      [call 16 "shared", call 17 "left"] := by cbv
  have ofNothing : calls [] = [] := by cbv
  rw [ProgramModel.callees, model, targets]
  dsimp only [body]
  split
  · rw [ofRun]
    rfl
  · rw [ofLeft]
    rfl
  · rw [ofRight]
    rfl
  · rw [ofShared]
    rfl
  · rw [ofNothing]
    rfl

def graph : CallTree :=
  .node run [.node left [.node shared [.node shared [], .node left []]],
    .node right [.node shared [], .node run []], .node left []]

theorem callGraph_shape_shared :
    model.callGraph ["main"] true run = .ok graph ∧
      model.callees ["main"] shared = .ok [shared, left] ∧
      ∃ targets : Routine → List Routine,
        (∀ r ∈ [run, left, shared, right], model.callees ["main"] r = .ok (targets r)) ∧
          9 = 1 + ([run, left, shared, right].map fun r => (targets r).length).sum := by
  have routines : graph.routines = [run, left, shared, right] := by decide
  have nodes : graph.walk.length = 9 := by rfl
  have divided : graph.walk = graph.walk.take 2 ++
      .node shared [.node shared [], .node left []] :: graph.walk.drop 3 := by rfl
  have reached : graph = CallTree.reach (model.calleesOrNone ["main"]) 5 run := by
    have told : model.calleesOrNone ["main"] = targets := by
      funext r
      rw [ProgramModel.calleesOrNone, callees_eq]
      rfl
    rw [told]
    rfl
  have built : model.callGraph ["main"] true run = .ok graph :=
    ProgramModel.callGraph_eq_ok.mpr ⟨reached, fun r _ => ⟨targets r, callees_eq r⟩⟩
  obtain ⟨-, places, count, -⟩ := ProgramModel.callGraph_shape built
  obtain ⟨expanded, -⟩ := places _ _ _ divided
  rw [routines, nodes] at count
  exact ⟨built, expanded (by decide), count⟩

end SharedCallee

end ProbeWeave.Graph
