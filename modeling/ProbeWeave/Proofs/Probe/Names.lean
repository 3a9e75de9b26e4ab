import Mathlib.Data.List.Pairwise
import Std.Data.String.ToNat
import ProbeWeave.Probe.Registry

/-! # The names of probes

Routine probes and loop probes are numbered apart, and the number stands between a word and an
underscore. The names of a registry therefore all differ, whatever the routines are called.
-/

namespace ProbeWeave.Probe

open Graph

/-- A name made of a word, a number and the name of a routine. -/
def numberedName (stem : String) (n : Nat) (r : Routine) : String :=
  stem ++ toString n ++ "_" ++ sanitize r.name

/-- The number can be read off the characters behind the word. -/
theorem toList_numberedName (stem : String) (n : Nat) (r : Routine) :
    (numberedName stem n r).toList =
      stem.toList ++ (Nat.toDigits 10 n ++ '_' :: (sanitize r.name).toList) := by
  simp [numberedName]

theorem takeWhile_digits (n : Nat) (rest : List Char) :
    (Nat.toDigits 10 n ++ '_' :: rest).takeWhile Char.isDigit = Nat.toDigits 10 n := by
  have digits : ∀ c ∈ Nat.toDigits 10 n, c.isDigit = true := fun c member =>
    Nat.isDigit_of_mem_toDigits (by decide) (by decide) member
  rw [List.takeWhile_append_of_pos digits, List.takeWhile_cons_of_neg (by decide), List.append_nil]

theorem numberedName_injective {stem : String} {m n : Nat} {r s : Routine}
    (same : numberedName stem m r = numberedName stem n s) : m = n := by
  have chars := congrArg String.toList same
  rw [toList_numberedName, toList_numberedName] at chars
  have tails := congrArg (List.takeWhile Char.isDigit) (List.append_cancel_left chars)
  rw [takeWhile_digits, takeWhile_digits, ← Nat.toList_repr, ← Nat.toList_repr] at tails
  exact Nat.repr_injective (String.toList_injective tails)

/-- Names with one word, numbered from one. -/
def Numbered (stem : String) (names : List String) : Prop :=
  ∀ i name, names[i]? = some name → ∃ r, name = numberedName stem (i + 1) r

namespace Numbered

variable {stem : String} {names : List String}

theorem nil (stem : String) : Numbered stem [] := by
  simp [Numbered]

theorem append (numbered : Numbered stem names) (r : Routine) :
    Numbered stem (names ++ [numberedName stem (names.length + 1) r]) := by
  intro i name found
  rw [List.getElem?_append] at found
  split at found
  · exact numbered i name found
  · obtain ⟨rfl, rfl⟩ : i = names.length ∧ numberedName stem (names.length + 1) r = name := by
      rw [List.getElem?_singleton] at found
      split at found
      · exact ⟨by omega, Option.some.inj found⟩
      · cases found
    exact ⟨r, rfl⟩

theorem nodup (numbered : Numbered stem names) : names.Nodup := by
  refine List.pairwise_iff_getElem.mpr fun i j inI inJ before same => ?_
  obtain ⟨r, first⟩ := numbered i _ (List.getElem?_eq_getElem inI)
  obtain ⟨s, second⟩ := numbered j _ (List.getElem?_eq_getElem inJ)
  rw [first, second] at same
  have := numberedName_injective same
  omega

theorem head (numbered : Numbered stem names) {name : String} (member : name ∈ names) {c : Char}
    {rest : List Char} (begins : stem.toList = c :: rest) : name.toList.head? = some c := by
  obtain ⟨i, found⟩ := List.mem_iff_getElem?.mp member
  obtain ⟨r, rfl⟩ := numbered i name found
  rw [toList_numberedName, begins]
  rfl

/-- A character that may not stand in the name of a probe stands in none. -/
theorem not_mem (numbered : Numbered stem names) {name : String} (member : name ∈ names) {c : Char}
    (foreign : isProbeChar c = false) (apart : c ∉ stem.toList) : c ∉ name.toList := by
  obtain ⟨i, found⟩ := List.mem_iff_getElem?.mp member
  obtain ⟨r, rfl⟩ := numbered i name found
  obtain ⟨other, line⟩ := Bool.or_eq_false_iff.mp foreign
  have digits : c ∉ Nat.toDigits 10 (i + 1) := fun digit => by
    have isDigit := Nat.isDigit_of_mem_toDigits (by decide) (by decide) digit
    rw [Char.isAlphanum, isDigit, Bool.or_true] at other
    cases other
  have kept : c ∉ (sanitize r.name).toList := by
    rw [sanitize, String.toList_ofList, List.mem_filter, foreign]
    simp
  have under : c ≠ '_' := by simpa using line
  rw [toList_numberedName]
  simp [apart, digits, kept, under]

end Numbered

namespace Registry

/-- A registry whose probes are numbered in the order of their allocation. -/
structure Ordered (registry : Registry) : Prop where
  probes : Numbered "probe" (registry.probes.map RoutineProbe.name)
  loops : Numbered "loop" (registry.loops.map LoopProbe.name)

/-- The fields of a registry have different names. -/
theorem Ordered.nodup {registry : Registry} (ordered : registry.Ordered) :
    registry.fieldNames.Nodup := by
  refine List.nodup_append.mpr ⟨ordered.probes.nodup, ordered.loops.nodup, ?_⟩
  rintro name probe _ loop rfl
  have first := ordered.probes.head probe rfl
  have second := ordered.loops.head loop rfl
  rw [first] at second
  cases second

/-- No blank stands in the name of a field. -/
theorem Ordered.not_mem_blank {registry : Registry} (ordered : registry.Ordered) {name : String}
    (member : name ∈ registry.fieldNames) : ' ' ∉ name.toList := by
  rcases List.mem_append.mp member with probe | loop
  · exact ordered.probes.not_mem probe (by decide) (by decide)
  · exact ordered.loops.not_mem loop (by decide) (by decide)

theorem ordered_ofGraph (root : CallTree) (home : Home) : (ofGraph root home).Ordered := by
  refine ⟨fun i name found => ?_, .nil _⟩
  rw [ofGraph, List.getElem?_map, List.getElem?_mapIdx, Option.map_map,
    Option.map_eq_some_iff] at found
  obtain ⟨r, -, rfl⟩ := found
  exact ⟨r, rfl⟩

/-- Routines are told by their probes. -/
theorem map_routine_mapIdx (rs : List Routine) :
    (rs.mapIdx routineProbe).map RoutineProbe.routine = rs := by
  refine List.ext_getElem? fun i => ?_
  rw [List.getElem?_map, List.getElem?_mapIdx, Option.map_map]
  exact Option.map_id'

theorem Ordered.addLoop {registry : Registry} (ordered : registry.Ordered) (r : Routine)
    (line : Nat) : (registry.addLoop r line).2.Ordered := by
  refine ⟨ordered.probes, ?_⟩
  have longer := ordered.loops.append r
  rw [List.length_map] at longer
  have names : (registry.addLoop r line).2.loops.map LoopProbe.name =
      registry.loops.map LoopProbe.name ++ [numberedName "loop" (registry.loops.length + 1) r] :=
    List.map_append ..
  rwa [names]

/-! ### Loops one after the other -/

/-- Allocates probes for loops, each given by its routine and its line. -/
def addLoops (registry : Registry) (loops : List (Routine × Nat)) : Registry :=
  loops.foldl (fun registry x => (registry.addLoop x.1 x.2).2) registry

theorem addLoops_cons (registry : Registry) (x : Routine × Nat) (rest : List (Routine × Nat)) :
    registry.addLoops (x :: rest) = (registry.addLoop x.1 x.2).2.addLoops rest :=
  rfl

theorem addLoops_append (registry : Registry) (loops more : List (Routine × Nat)) :
    registry.addLoops (loops ++ more) = (registry.addLoops loops).addLoops more :=
  List.foldl_append

/-- Allocating loop probes leaves the other probes and the home alone. -/
theorem addLoops_probes (registry : Registry) (loops : List (Routine × Nat)) :
    (registry.addLoops loops).probes = registry.probes ∧
      (registry.addLoops loops).home = registry.home := by
  induction loops generalizing registry with
  | nil => exact ⟨rfl, rfl⟩
  | cons x rest ih => exact ih (registry.addLoop x.1 x.2).2

/-- The new probes are numbered on from the old ones. -/
theorem addLoops_loops (registry : Registry) (loops : List (Routine × Nat)) :
    (registry.addLoops loops).loops = registry.loops ++ loops.mapIdx fun i x =>
      ⟨numberedName "loop" (registry.loops.length + i + 1) x.1, x.1, x.2⟩ := by
  induction loops generalizing registry with
  | nil => exact (List.append_nil _).symm
  | cons x rest ih =>
    have first : (registry.addLoop x.1 x.2).2.loops =
        registry.loops ++ [⟨numberedName "loop" (registry.loops.length + 1) x.1, x.1, x.2⟩] := rfl
    have later : (registry.addLoop x.1 x.2).2.loops.length = registry.loops.length + 1 := by
      rw [first, List.length_append, List.length_singleton]
    rw [addLoops_cons, ih, later, first, List.mapIdx_cons, List.append_assoc]
    simp only [Nat.add_assoc, Nat.add_comm 1, Nat.add_zero, List.singleton_append]

/-- The probes of a registry that had no loops are numbered from one. -/
theorem name_addLoops {registry : Registry} (fresh : registry.loops = [])
    (loops : List (Routine × Nat)) {i : Nat} {p : LoopProbe}
    (found : (registry.addLoops loops).loops[i]? = some p) :
    p.name = numberedName "loop" (i + 1) p.routine := by
  rw [addLoops_loops, fresh, List.nil_append, List.getElem?_mapIdx] at found
  obtain ⟨x, -, rfl⟩ := Option.map_eq_some_iff.mp found
  simp

theorem nodup_addLoops {registry : Registry} (fresh : registry.loops = [])
    (loops : List (Routine × Nat)) : ((registry.addLoops loops).loops.map LoopProbe.name).Nodup := by
  have numbered : Numbered "loop" ((registry.addLoops loops).loops.map LoopProbe.name) := by
    intro i name found
    rw [List.getElem?_map] at found
    obtain ⟨p, at_i, rfl⟩ := Option.map_eq_some_iff.mp found
    exact ⟨p.routine, name_addLoops fresh loops at_i⟩
  exact numbered.nodup

/-- The new probes are those of the loops given. -/
theorem map_addLoops (registry : Registry) (loops : List (Routine × Nat)) :
    (registry.addLoops loops).loops.map (fun p => (p.routine, p.line)) =
      registry.loops.map (fun p => (p.routine, p.line)) ++ loops := by
  rw [addLoops_loops, List.map_append]
  congr 1
  refine List.ext_getElem? fun i => ?_
  rw [List.getElem?_map, List.getElem?_mapIdx, Option.map_map]
  exact Option.map_id'

theorem Ordered.addLoops {registry : Registry} (ordered : registry.Ordered)
    (loops : List (Routine × Nat)) : (registry.addLoops loops).Ordered := by
  induction loops generalizing registry with
  | nil => exact ordered
  | cons x rest ih => exact ih (ordered.addLoop x.1 x.2)

/-! ### Registries that grow -/

/-- A registry with more loop probes. -/
structure Grows (before after : Registry) : Prop where
  home : after.home = before.home
  probes : after.probes = before.probes
  loops : before.loops <+: after.loops

namespace Grows

variable {a b c : Registry}

theorem refl (a : Registry) : Grows a a :=
  ⟨rfl, rfl, List.prefix_rfl⟩

theorem trans (first : Grows a b) (second : Grows b c) : Grows a c :=
  ⟨second.home.trans first.home, second.probes.trans first.probes,
    first.loops.trans second.loops⟩

theorem addLoop (a : Registry) (r : Routine) (line : Nat) : Grows a (a.addLoop r line).2 :=
  ⟨rfl, rfl, List.prefix_append _ _⟩

/-- No field is lost. -/
theorem fieldNames (grows : Grows a b) {name : String} (member : name ∈ a.fieldNames) :
    name ∈ b.fieldNames := by
  rw [Registry.fieldNames, List.mem_append] at member ⊢
  rw [grows.probes]
  exact member.imp id fun loop => (grows.loops.map LoopProbe.name).subset loop

end Grows

end Registry

end ProbeWeave.Probe
