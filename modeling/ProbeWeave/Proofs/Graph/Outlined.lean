import ProbeWeave.Graph.Basic
import ProbeWeave.Proofs.Graph.Expansion

/-! # Every node has its line

An outline leaves out what is below a routine that was shown before. Nothing is there: a search follows a
routine only where it meets it first, and the outline shows the nodes in the order of the search. So the
lines of an outline are the nodes of the graph.
-/

namespace ProbeWeave.Graph

namespace CallTree

/-- What stands in front of a name at a depth: four columns for each level, the last ones a branch. -/
def branchIndent : Nat → String
  | 0 => ""
  | depth + 1 => String.join (List.replicate depth "    ") ++ "|-- "

theorem outlineLine_eq (r : Routine) (repeated : Bool) (depth : Nat) :
    outlineLine r repeated depth =
      branchIndent depth ++ r.qualifiedName ++ if repeated then " (*)" else "" := by
  cases depth <;> simp [outlineLine, branchIndent]

/-- The lines of routines at their depths, marked where a routine was shown before. -/
def markedLines : List Routine → List (Routine × Nat) → List String
  | _, [] => []
  | shown, (r, depth) :: rest =>
    outlineLine r (shown.contains r) depth :: markedLines (r :: shown) rest

theorem length_markedLines (shown : List Routine) (xs : List (Routine × Nat)) :
    (markedLines shown xs).length = xs.length := by
  induction xs generalizing shown with
  | nil => rfl
  | cons x rest ih => exact congrArg Nat.succ (ih _)

theorem markedLines_append (shown : List Routine) (xs ys : List (Routine × Nat)) :
    markedLines shown (xs ++ ys) =
      markedLines shown xs ++ markedLines ((xs.map Prod.fst).reverse ++ shown) ys := by
  induction xs generalizing shown with
  | nil => rfl
  | cons x rest ih =>
    rw [List.cons_append, markedLines, markedLines, ih, List.map_cons, List.reverse_cons,
      List.append_assoc]
    rfl

/-- Behind some lines there is the line of the next routine, marked if it is among theirs. -/
theorem getElem?_markedLines (front back : List (Routine × Nat)) (r : Routine) (depth : Nat) :
    (markedLines [] (front ++ (r, depth) :: back))[front.length]? =
      some (outlineLine r (decide (r ∈ front.map Prod.fst)) depth) := by
  have repeated : ((front.map Prod.fst).reverse ++ []).contains r = decide (r ∈ front.map Prod.fst) := by
    rw [List.append_nil, Bool.eq_iff_iff, List.contains_iff_mem, List.mem_reverse, decide_eq_true_iff]
  rw [markedLines_append, List.getElem?_append_right (Nat.le_of_eq (length_markedLines [] front)),
    length_markedLines, Nat.sub_self, markedLines, repeated]
  rfl

/-! ### What an outline leaves out -/

/-- Whether a node whose routine was shown before has nothing below it. -/
def RepeatsEnd : List Routine → List CallTree → Prop
  | _, [] => True
  | shown, n :: nodes =>
    (n.routine ∈ shown → n.children = []) ∧ RepeatsEnd (n.routine :: shown) nodes

theorem repeatsEnd_append {shown : List Routine} {front nodes : List CallTree} :
    RepeatsEnd shown (front ++ nodes) ↔
      RepeatsEnd shown front ∧ RepeatsEnd ((front.map routine).reverse ++ shown) nodes := by
  induction front generalizing shown with
  | nil => simp [RepeatsEnd]
  | cons n rest ih =>
    rw [List.cons_append, RepeatsEnd, RepeatsEnd, ih, List.map_cons, List.reverse_cons,
      List.append_assoc, and_assoc]
    rfl

/-- Where only new routines are followed, the others have nothing below them. -/
theorem FirstExpanded.repeatsEnd {callees : Routine → List Routine} {visited : List Routine}
    {nodes : List CallTree} (expanded : FirstExpanded callees visited nodes) :
    RepeatsEnd visited nodes := by
  induction nodes generalizing visited with
  | nil => trivial
  | cons n rest ih =>
    obtain ⟨here, later⟩ := expanded
    exact ⟨fun old => List.map_eq_nil_iff.mp (here.trans (if_pos old)), ih later⟩

/-- The graph of direct calls has nothing below them. -/
theorem repeatsEnd_direct (callees : Routine → List Routine) (entry : Routine) :
    RepeatsEnd [] (direct callees entry).walk := by
  have leaves (shown rs : List Routine) :
      RepeatsEnd shown (walkAll (rs.map fun r => node r [])) := by
    induction rs generalizing shown with
    | nil => trivial
    | cons r rest ih => exact ⟨fun _ => rfl, ih _⟩
  rw [direct, walk]
  exact ⟨fun old => absurd old List.not_mem_nil, leaves _ _⟩

mutual

/-- If repeated routines have nothing below them, the outline of a graph shows all of its nodes. -/
theorem outlineFrom_eq (shown : List Routine) (depth : Nat) :
    ∀ t : CallTree, RepeatsEnd shown t.walk → outlineFrom shown depth t =
      (markedLines shown (depths depth t), (t.walk.map routine).reverse ++ shown)
  | node r children => by
    intro ends
    rw [walk] at ends
    obtain ⟨leaf, below⟩ := ends
    have later := outlineAll_eq (r :: shown) (depth + 1) children below
    rw [outlineFrom, later, depths, markedLines, walk, List.map_cons, List.reverse_cons,
      List.append_assoc]
    by_cases old : r ∈ shown
    · obtain rfl : children = [] := leaf old
      simp [old, depthsAll, markedLines, walkAll, routine]
    · simp [old, routine]

theorem outlineAll_eq (shown : List Routine) (depth : Nat) :
    ∀ ts : List CallTree, RepeatsEnd shown (walkAll ts) → outlineAll shown depth ts =
      (markedLines shown (depthsAll depth ts), ((walkAll ts).map routine).reverse ++ shown)
  | [] => fun _ => by
    simp [outlineAll, depthsAll, markedLines, walkAll]
  | t :: ts => by
    intro ends
    rw [walkAll, repeatsEnd_append] at ends
    obtain ⟨here, later⟩ := ends
    have nodes : (depths depth t).map Prod.fst = t.walk.map routine := by
      rw [map_fst_depths, occurrences, walkAll, walkAll, List.append_nil]
    rw [outlineAll, outlineFrom_eq shown depth t here]
    dsimp only
    rw [outlineAll_eq _ depth ts later, depthsAll, markedLines_append, nodes, walkAll]
    simp

end

theorem outline_eq {t : CallTree} (ends : RepeatsEnd [] t.walk) :
    t.outline = markedLines [] (depths 0 t) :=
  congrArg Prod.fst (outlineFrom_eq [] 0 t ends)

/-! ### Where nodes stand -/

mutual

theorem stands_of_walk {front back : List CallTree} {n : CallTree} :
    ∀ t : CallTree, t.walk = front ++ n :: back → ∃ depth, Stands [t] (front.map routine) depth n
  | node r children => by
    intro divided
    rw [walk] at divided
    cases front with
    | nil =>
      obtain ⟨rfl, -⟩ := List.cons.inj divided
      exact ⟨0, @Stands.here [] [] _⟩
    | cons first rest =>
      obtain ⟨rfl, below⟩ := List.cons.inj divided
      obtain ⟨depth, stands⟩ := stands_of_walkAll children below
      exact ⟨depth + 1, @Stands.under [] [] (node r children) _ _ _ stands⟩

/-- Every node of a walk stands somewhere, behind the nodes in front of it. -/
theorem stands_of_walkAll {front back : List CallTree} {n : CallTree} :
    ∀ ts : List CallTree, walkAll ts = front ++ n :: back →
      ∃ depth, Stands ts (front.map routine) depth n
  | [] => by
    intro divided
    simp [walkAll] at divided
  | t :: ts => by
    intro divided
    rw [walkAll] at divided
    have nodes : occurrences [t] = t.walk.map routine := by
      rw [occurrences, walkAll, walkAll, List.append_nil]
    rcases List.append_eq_append_iff.mp divided with ⟨behind, rfl, later⟩ | ⟨_ | ⟨first, rest⟩, here, same⟩
    · obtain ⟨depth, stands⟩ := stands_of_walkAll ts later
      rw [List.map_append, ← nodes]
      exact ⟨depth, stands.cons t⟩
    · obtain ⟨depth, stands⟩ := @stands_of_walkAll [] back n ts same.symm
      rw [List.append_nil] at here
      rw [← here, ← nodes, ← List.append_nil (occurrences [t])]
      exact ⟨depth, stands.cons t⟩
    · obtain ⟨rfl, -⟩ := List.cons.inj same
      obtain ⟨depth, stands⟩ := stands_of_walk t here
      exact ⟨depth, stands.append ts⟩

end

end CallTree

namespace ProgramModel

variable {ε : Type} {m : ProgramModel ε} {exclusions : List String}

/-- In a call graph of either kind a routine that occurs again has nothing below it. -/
theorem callGraph_repeatsEnd {entry : Routine} {recursive : Bool} {graph : CallTree}
    (success : m.callGraph exclusions recursive entry = .ok graph) :
    CallTree.RepeatsEnd [] graph.walk := by
  obtain ⟨built, -⟩ := callGraph_eq_ok.mp success
  rw [built]
  split
  · have expanded := @reach_expanded _ m exclusions entry
    rw [CallTree.walkAll, CallTree.walkAll, List.append_nil] at expanded
    exact expanded.repeatsEnd
  · exact CallTree.repeatsEnd_direct _ _

/-- The outline of a call graph, recursive or not, is the graph.

It has one line for each node, in the order of the walk. The line of a node names its routine behind the
indent of its depth, and is marked if and only if the routine occurs in front of the node, too. -/
theorem callGraph_outline {entry : Routine} {recursive : Bool} {graph : CallTree}
    (success : m.callGraph exclusions recursive entry = .ok graph) :
    CallTree.walkStack [graph] = graph.walk ∧ graph.outline.length = graph.walk.length ∧
      ∀ front node back, graph.walk = front ++ node :: back →
        (∃ depth, CallTree.Stands [graph] (front.map CallTree.routine) depth node) ∧
        ∀ depth, CallTree.Stands [graph] (front.map CallTree.routine) depth node →
          graph.outline[front.length]? =
            some (CallTree.branchIndent depth ++ node.routine.qualifiedName ++
              if node.routine ∈ front.map CallTree.routine then " (*)" else "") := by
  have lines := CallTree.outline_eq (callGraph_repeatsEnd success)
  have walked : CallTree.walkAll [graph] = graph.walk := by
    rw [CallTree.walkAll, CallTree.walkAll, List.append_nil]
  refine ⟨(CallTree.walkStack_eq _).trans walked, ?count, fun front node back divided =>
    ⟨CallTree.stands_of_walk graph divided, fun depth stands => ?line⟩⟩
  case count =>
    have nodes := congrArg List.length (CallTree.map_fst_depths 0 graph)
    rw [List.length_map, CallTree.occurrences, List.length_map, walked] at nodes
    rw [lines, CallTree.length_markedLines, nodes]
  case line =>
    obtain ⟨before, behind, places, same⟩ := stands.exists_depthsAll 0
    rw [CallTree.depthsAll, CallTree.depthsAll, List.append_nil, Nat.zero_add] at places
    have count : front.length = before.length := by
      rw [← List.length_map (f := CallTree.routine), ← same, List.length_map]
    rw [lines, places, count, CallTree.getElem?_markedLines, same, CallTree.outlineLine_eq]
    simp only [decide_eq_true_iff]

end ProgramModel

namespace SharedCallee

open CallTree

/-- In this graph `right` calls `shared`, which was followed below `left`, and `run` itself. -/
theorem callGraph_outline_shared :
    model.callGraph ["main"] true run = .ok graph ∧ graph.outline.length = 9 ∧
      Stands [graph] [run, left, shared, shared, left, right] 2 (.node shared []) ∧
      graph.outline[6]? = some "    |-- shared (*)" := by
  have reached : graph = reach (model.calleesOrNone ["main"]) 5 run := by
    have told : model.calleesOrNone ["main"] = targets := by
      funext r
      rw [ProgramModel.calleesOrNone, callees_eq]
      rfl
    rw [told]
    rfl
  have built : model.callGraph ["main"] true run = .ok graph :=
    ProgramModel.callGraph_eq_ok.mpr ⟨reached, fun r _ => ⟨targets r, callees_eq r⟩⟩
  have divided : graph.walk = graph.walk.take 6 ++ .node shared [] :: graph.walk.drop 7 := by rfl
  have below : Stands graph.children [left, shared, shared, left, right] 1 (.node shared []) :=
    @Stands.under [.node left [.node shared [.node shared [], .node left []]]] [.node left []] _ _ _ _
      (@Stands.here [] [.node run []] (.node shared []))
  have stands := @Stands.under [] [] graph _ _ _ below
  obtain ⟨-, count, places⟩ := ProgramModel.callGraph_outline built
  exact ⟨built, count, stands, (places _ _ _ divided).2 2 stands⟩

end SharedCallee

end ProbeWeave.Graph
