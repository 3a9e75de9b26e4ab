import Mathlib
import ProbeWeave.Proofs.Delivery.Steps

/-! # What becomes of the originals

A delivery to another directory leaves the files of the project alone, unless the project lies in that
directory. Then the copy of what stands behind the names from the output to the project falls back into
the project: with the output `/w` and the project `/w/p`, the file `p/p/m` of the output is the file
`p/m` of the project. No file is changed that no other file and no module falls on in this way.
-/

namespace ProbeWeave.Delivery

open Files FileTree Weaving

variable {w : World} {units : List WovenUnit} {profile : Profile} {configured : Path}
  {project' output' : Path} {before t t' : FileTree}
  {patterns project output down names : List String} {bytes : ByteArray}

/-- Whether a file of a project can be replaced by a delivery: the project lies in the output, and a
module or a file that is not left out stands behind the names that lead down to the project, with the
names of the file behind them. A file that was copied can be copied again, so the names that lead down
may be there several times. -/
def Overlaid (t : FileTree) (units : List WovenUnit) (project output names : List String) : Prop :=
  ∃ down, down ≠ [] ∧ project = output ++ down ∧
    ((∃ u ∈ units, u.unit.relative.names = down ++ names) ∨
      (∀ name ∈ down ++ names, name ∉ Project.ignoredNames) ∧
        ∃ other times bytes, other ≠ names ∧ down <+: other ∧
          other <+: (List.replicate times down).flatten ++ names ∧
          t.at? (project ++ other) = some (.file bytes))

/-- What the files of a project hold while it is copied: what they held before, or what a file behind the
names that lead down to the project did. -/
structure Traced (patterns : List String) (before : FileTree) (project down : List String)
    (t : FileTree) : Prop where
  directory : t.at? project = some .directory
  origin : ∀ names bytes, t.at? (project ++ names) = some (.file bytes) →
    ∃ other times, before.at? (project ++ other) = some (.file bytes) ∧
      other <+: (List.replicate times down).flatten ++ names ∧
      (other = names ∨ down <+: other ∧ Passes patterns (down ++ names))

namespace Traced

theorem refl (directory : t.at? project = some .directory) : Traced patterns t project down t :=
  ⟨directory, fun names _ here => ⟨names, 0, here, List.prefix_rfl, .inl rfl⟩⟩

/-- A file that falls on another one comes from behind the way down. -/
theorem fallen (traced : Traced patterns before project down t) {from_ : List String}
    (there : t.at? (project ++ (down ++ from_)) = some (.file bytes)) (onto : from_ <+: names)
    (passes : Passes patterns (down ++ names)) :
    ∃ other times, before.at? (project ++ other) = some (.file bytes) ∧
      other <+: (List.replicate times down).flatten ++ names ∧
      (other = names ∨ down <+: other ∧ Passes patterns (down ++ names)) := by
  obtain ⟨other, times, held, reaches, behind⟩ := traced.origin _ _ there
  refine ⟨other, times + 1, held, ?_, .inr ⟨?_, passes⟩⟩
  · rw [List.replicate_succ', List.flatten_append, List.flatten_singleton, List.append_assoc]
    exact reaches.trans ((List.prefix_append_right_inj _).mpr ((List.prefix_append_right_inj _).mpr onto))
  · rcases behind with rfl | ⟨behind, -⟩
    · exact List.prefix_append ..
    · exact behind

/-- What a step puts into the project comes from behind the way down. -/
theorem step (contains : project = output ++ down) (step : CopyStep patterns project output t t')
    (traced : Traced patterns before project down t) : Traced patterns before project down t' := by
  refine ⟨step.keeps_directory traced.directory, fun names bytes here => ?_⟩
  cases step with
  | directory passes there makes =>
    rcases makes.eq_or (project ++ names) with same | ⟨-, -, made⟩
    · exact traced.origin names bytes (same ▸ here)
    · cases made.symm.trans here
  | file passes there parent free =>
    rename_i within name bytes'
    by_cases onto : project ++ names = output ++ (within ++ [name])
    · rw [onto, at?_put_self (by simp)] at here
      cases here
      rw [contains, List.append_assoc] at onto
      have place := List.append_cancel_left onto
      rw [← place] at passes there
      exact traced.fallen there List.prefix_rfl passes
    · rw [at?_put_of_ne onto] at here
      exact traced.origin names bytes here
  | into passes there parent free =>
    rename_i within name bytes'
    by_cases onto : project ++ names = output ++ (within ++ [name, name])
    · have below : names ≠ [] := by
        rintro rfl
        rw [← onto, List.append_nil] at free
        exact free traced.directory
      rw [onto, at?_put_self (by simp)] at here
      cases here
      rw [contains, List.append_assoc] at onto
      have place := List.append_cancel_left onto
      -- The file lies one level deeper than its own names say.
      have parent : down ++ names.dropLast = within ++ [name] := by
        rw [← List.dropLast_append_of_ne_nil below, place, List.append_cons, List.dropLast_concat]
      rw [← parent] at there
      refine traced.fallen there (List.dropLast_prefix names) ?_
      rw [place, List.append_cons, passes_append]
      exact ⟨passes, (passes_append.mp passes).2⟩
    · rw [at?_put_of_ne onto] at here
      exact traced.origin names bytes here

end Traced

/-- What lies below the output but not in an output inside the project has the output above the project. -/
theorem exists_way (outside : ¬(project <+: output ∧ output <+: project ++ names))
    (below : output <+: project ++ names) : ∃ down, down ≠ [] ∧ project = output ++ down := by
  rcases List.prefix_or_prefix_of_prefix below (List.prefix_append project names) with above | inside
  · obtain ⟨down, rfl⟩ := above
    refine ⟨down, ?_, rfl⟩
    rintro rfl
    exact outside ⟨by simp, by simp⟩
  · exact absurd ⟨inside, below⟩ outside

/-- A copy leaves a file of the project as it is if nothing falls on it. -/
theorem copyDirectory_keeps (directory : t.at? project = some .directory)
    (ignored : ∀ names, Passes patterns names → ∀ name ∈ names, name ∉ Project.ignoredNames)
    (outside : ¬(project <+: output ∧ output <+: project ++ names))
    (clear : ¬Overlaid t units project output names)
    (here : t.at? (project ++ names) = some (.file bytes)) :
    (t.copyDirectory patterns project output).1.at? (project ++ names) = some (.file bytes) := by
  have steps := copyDirectory_steps t patterns project output
  by_cases below : output <+: project ++ names
  · obtain ⟨down, way, contains⟩ := exists_way outside below
    obtain ⟨bytes', after⟩ := CopySteps.keep (fun _ _ step => step.keeps_file) steps ⟨bytes, here⟩
    obtain ⟨-, origin⟩ := CopySteps.keep (fun _ _ step => Traced.step contains step) steps
      (Traced.refl directory)
    obtain ⟨other, times, held, reaches, source⟩ := origin names bytes' after
    by_cases same : other = names
    · subst same
      cases held.symm.trans here
      exact after
    · obtain ⟨behind, passes⟩ := source.resolve_left same
      exact absurd ⟨down, way, contains, .inr ⟨ignored _ passes, other, times, bytes', same, behind,
        reaches, held⟩⟩ clear
  · exact CopySteps.keep (fun _ _ step => step.keeps_source below) steps here

/-- A delivery to another directory leaves every file of the project as it is that does not lie in an
output inside the project, if neither a module nor another file falls on it. -/
theorem run_keeps_originals (apart : profile.inPlace = false)
    (wanted : profile.outputDir = some configured)
    (found : w.resolve? (profile.projectDir.getD default) = some project')
    (target : w.resolve? configured = some output') (straight : ".." ∉ w.cwd.names)
    (relative : ∀ u ∈ units, u.unit.relative.slashes = 0 ∧ ".." ∉ u.unit.relative.names)
    (directory : w.tree.at? project'.names = some .directory)
    (outside : ¬(output' ≠ project' ∧ project'.names <+: output'.names ∧
      output'.names <+: project'.names ++ names))
    (clear : ¬Overlaid w.tree units project'.names output'.names names)
    (here : w.tree.at? (project'.names ++ names) = some (.file bytes)) :
    (run w units profile).tree.at? (project'.names ++ names) = some (.file bytes) := by
  obtain ⟨-, rooted⟩ := straight_of_resolve? straight found
  obtain ⟨goes, rooted'⟩ := straight_of_resolve? straight target
  rcases copyProject_cases w.tree project' output' with ⟨-, unchanged, fault, refused⟩ | ⟨differs, copied⟩
  · rcases run_cases apart wanted found target with ⟨fault', -, result⟩ | ⟨accepted, -⟩
    · rw [result, unchanged, here]
    · cases refused.symm.trans accepted
  · have outside : ¬(project'.names <+: output'.names ∧ output'.names <+: project'.names ++ names) :=
      fun inside => outside ⟨differs, inside⟩
    have kept := copyDirectory_keeps directory
      (fun names passes name member ignored =>
        (passes_leftOut (rooted'.trans rooted.symm)).mp passes name member (.inl ignored)) outside clear here
    rcases run_cases apart wanted found target with ⟨fault', -, result⟩ | ⟨-, result⟩
    · rw [result, copied]
      exact kept
    · rw [result, copied]
      refine writeAll_keeps_file goes relative ?_ kept
      intro u inUnits onto
      obtain ⟨down, way, contains⟩ := exists_way outside ⟨_, onto.symm⟩
      rw [contains, List.append_assoc] at onto
      exact clear ⟨down, way, contains, .inl ⟨u, inUnits, (List.append_cancel_left onto).symm⟩⟩

end ProbeWeave.Delivery

namespace ProbeWeave.Delivery.Nested

open Files FileTree Weaving

/-- A project in a directory that holds a directory of its own name. -/
def tree : FileTree :=
  ⟨[(["w"], .directory), (["w", "p"], .directory), (["w", "p", "m"], .file ⟨#[1]⟩),
    (["w", "p", "n"], .file ⟨#[2]⟩), (["w", "p", "p"], .directory),
    (["w", "p", "p", "m"], .file ⟨#[3]⟩)]⟩

def world : World := ⟨tree, .absolute ["w"], .absolute []⟩

/-- The output is the directory that the project lies in. -/
def profile : Profile :=
  { projectDir := some ⟨0, ["p"]⟩, outputDir := some (.absolute ["w"]) }

/-- The files once the project was copied. -/
def copied : FileTree :=
  ⟨[(["w"], .directory), (["w", "p"], .directory), (["w", "p", "m"], .file ⟨#[3]⟩),
    (["w", "p", "n"], .file ⟨#[2]⟩), (["w", "p", "p"], .directory),
    (["w", "p", "p", "m"], .file ⟨#[3]⟩), (["w", "m"], .file ⟨#[1]⟩), (["w", "n"], .file ⟨#[2]⟩)]⟩

theorem run_world : run world [] profile = ⟨copied, [], .ok []⟩ := by cbv

/-- The file of a project that lies in the output is replaced by another one. -/
theorem original_replaced :
    (run world [] profile).written = .ok [] ∧
      world.tree.at? ["w", "p", "m"] = some (.file ⟨#[1]⟩) ∧
      (run world [] profile).tree.at? ["w", "p", "m"] = some (.file ⟨#[3]⟩) := by
  rw [run_world]
  exact ⟨rfl, rfl, rfl⟩

def unit : WovenUnit :=
  ⟨⟨.absolute ["w", "p", "n"], ⟨0, ["n"]⟩, "n", false, "", []⟩, "pass", []⟩

theorem not_overlaid : ¬Overlaid tree [unit] ["w", "p"] ["w"] ["n"] := by
  rintro ⟨down, -, way, ⟨u, inUnits, same⟩ | ⟨-, other, times, bytes, -, ⟨rest, rfl⟩, reaches, held⟩⟩
  · obtain rfl := List.mem_singleton.mp inUnits
    cases way
    simp [unit] at same
  · cases way
    obtain rfl : rest = ["m"] := by
      simp only [tree, at?, List.cons_append, List.nil_append, List.isEmpty_cons, List.lookup_cons] at held
      grind
    rcases times with _ | _ | times
    · simp at reaches
    · simp at reaches
    · simp [List.replicate_succ] at reaches

theorem run_keeps_originals_nested :
    world.tree.at? ["w", "p", "n"] = some (.file ⟨#[2]⟩) ∧
      (run world [unit] profile).tree.at? ["w", "p", "n"] = some (.file ⟨#[2]⟩) := by
  have found : world.resolve? (profile.projectDir.getD default) = some (.absolute ["w", "p"]) := by cbv
  have target : world.resolve? (.absolute ["w"]) = some (.absolute ["w"]) := rfl
  have here : world.tree.at? (["w", "p"] ++ ["n"]) = some (.file ⟨#[2]⟩) := rfl
  have straight : ".." ∉ world.cwd.names := by decide
  have relative : ∀ u ∈ [unit], u.unit.relative.slashes = 0 ∧ ".." ∉ u.unit.relative.names := by decide
  have outside : ¬(Path.absolute ["w"] ≠ .absolute ["w", "p"] ∧ ["w", "p"] <+: ["w"] ∧
      ["w"] <+: ["w", "p"] ++ ["n"]) := by decide
  exact ⟨here, run_keeps_originals rfl rfl found target straight relative rfl outside not_overlaid here⟩

end ProbeWeave.Delivery.Nested
