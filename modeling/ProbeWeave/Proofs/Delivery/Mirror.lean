import Mathlib
import ProbeWeave.Proofs.Delivery.Steps

/-! # What a mirror holds

A delivery to another directory that is accepted leaves a mirror of the project there: each of its files
with the text of the module written to it or the bytes that it has in the project. The names that are
left out are those of files as well as of directories and at any level, so a file `env`, and a directory
of the name that the output has in the project, are missing. A file also does not arrive at its place if
a directory stands there.
-/

namespace ProbeWeave.Delivery

open Files FileTree Weaving Outcome

variable {w : World} {units : List WovenUnit} {profile : Profile} {configured project output : Path}

/-- An accepted delivery copies the project completely, and then writes the modules. -/
theorem accepted_cases (apart : profile.inPlace = false) (wanted : profile.outputDir = some configured)
    (found : w.resolve? (profile.projectDir.getD default) = some project)
    (target : w.resolve? configured = some output)
    (accepted : ∃ targets, (run w units profile).written = .ok targets) :
    ∃ t, w.tree.copyDirectory (leftOut project output) project.names output.names = (t, .ok ()) ∧
      CopySteps (leftOut project output) project.names output.names w.tree t ∧
      (run w units profile).tree = (writeAll w.cwd (targetsIn output units) t).1 := by
  obtain ⟨targets, accepted⟩ := accepted
  rcases run_cases apart wanted found target with ⟨fault, -, result⟩ | ⟨complete, result⟩
  · rw [result] at accepted
    cases accepted
  · rcases copyProject_cases w.tree project output with ⟨-, -, fault, refused⟩ | ⟨-, copied⟩
    · cases refused.symm.trans complete
    · rw [copied] at complete result
      exact ⟨_, Prod.ext rfl (mapError_eq_ok.mp complete), copyDirectory_steps .., result⟩

/-- What an accepted delivery to another directory leaves there: the files of the project that are not
left out, as they are or woven; what is left out is not touched, and so nothing of an output inside the
project is copied into itself. -/
theorem run_mirrors (apart : profile.inPlace = false) (wanted : profile.outputDir = some configured)
    (found : w.resolve? (profile.projectDir.getD default) = some project)
    (target : w.resolve? configured = some output) (straight : ".." ∉ w.cwd.names)
    (relative : ∀ u ∈ units, u.unit.relative.slashes = 0 ∧ ".." ∉ u.unit.relative.names)
    (connected : w.tree.Connected)
    (accepted : ∃ targets, (run w units profile).written = .ok targets) :
    (∀ names bytes, w.tree.at? (project.names ++ names) = some (.file bytes) →
        ¬output.names <+: project.names ++ names →
        (∀ name ∈ names, ¬LeavesOut project.names output.names name) →
        w.tree.at? (output.names ++ names) ≠ some .directory →
          (run w units profile).tree.at? (output.names ++ names) =
            some (.file ((lastSource? units names).elim bytes String.toUTF8))) ∧
      (∀ names, (∃ name ∈ names, LeavesOut project.names output.names name) →
        (∀ u ∈ units, ¬names <+: u.unit.relative.names) →
          (run w units profile).tree.at? (output.names ++ names) = w.tree.at? (output.names ++ names)) ∧
      ∀ first rest, output.names = project.names ++ first :: rest →
        Text.globMatches first first = true → ∀ names,
          (∀ u ∈ units, ¬first :: rest ++ names <+: u.unit.relative.names) →
            (run w units profile).tree.at? (output.names ++ (first :: rest ++ names)) =
              w.tree.at? (output.names ++ (first :: rest ++ names)) := by
  obtain ⟨t, copied, steps, result⟩ := accepted_cases apart wanted found target accepted
  obtain ⟨-, rooted⟩ := straight_of_resolve? straight found
  obtain ⟨goes, rooted'⟩ := straight_of_resolve? straight target
  have passes {names : List String} : Passes (leftOut project output) names ↔
      ∀ name ∈ names, ¬LeavesOut project.names output.names name :=
    passes_leftOut (rooted'.trans rooted.symm)
  have untouched (names : List String)
      (leaves : ∃ name ∈ names, LeavesOut project.names output.names name)
      (unwritten : ∀ u ∈ units, ¬names <+: u.unit.relative.names) :
      (run w units profile).tree.at? (output.names ++ names) = w.tree.at? (output.names ++ names) := by
    have stops : ¬Passes (leftOut project output) names := by
      rw [passes]
      obtain ⟨name, member, leaves⟩ := leaves
      exact fun none => none name member leaves
    have kept : t.at? (output.names ++ names) = w.tree.at? (output.names ++ names) :=
      CopySteps.keep (P := fun t => t.at? (output.names ++ names) = w.tree.at? (output.names ++ names))
        (fun _ _ step before => (step.keeps_left_out stops).trans before) steps rfl
    rw [result, at?_writeAll goes relative, kept]
    intro u inUnits
    rw [List.prefix_append_right_inj]
    exact unwritten u inUnits
  refine ⟨?_, untouched, ?_⟩
  · intro names bytes here outside taken free
    have arrived := copyDirectory_arrives outside (passes.mpr taken) ⟨connected, here, free⟩ copied
    have connected := CopySteps.keep (fun _ _ step => step.keeps_connected) steps connected
    rw [result]
    exact writeAll_brings goes relative connected arrived
  · intro first rest leads itself names unwritten
    exact untouched _ ⟨first, List.mem_cons_self, .inr ⟨first, rest, leads, itself⟩⟩ unwritten

end ProbeWeave.Delivery

namespace ProbeWeave.Delivery.Inside

open Files FileTree Weaving

/-- A project with a file `env` and a directory of the name that the output has. -/
def tree : FileTree :=
  ⟨[(["w"], .directory), (["w", "m"], .file ⟨#[1]⟩), (["w", "n"], .file ⟨#[2]⟩),
    (["w", "env"], .file ⟨#[3]⟩), (["w", "p"], .directory), (["w", "p", "out"], .directory),
    (["w", "p", "out", "x"], .file ⟨#[4]⟩)]⟩

def world : World := ⟨tree, .absolute ["w"], .absolute []⟩

/-- The output lies in the project. -/
def profile : Profile :=
  { projectDir := some (.absolute ["w"]), outputDir := some (.absolute ["w", "out"]) }

def unit : WovenUnit :=
  ⟨⟨.absolute ["w", "m"], ⟨0, ["m"]⟩, "m", false, "", []⟩, "pass", []⟩

/-- The files once the project was copied and the module was written. -/
def delivered : FileTree :=
  ⟨tree.entries ++ [(["w", "out"], .directory), (["w", "out", "m"], .file "pass".toUTF8),
    (["w", "out", "n"], .file ⟨#[2]⟩), (["w", "out", "p"], .directory)]⟩

theorem run_world : run world [unit] profile =
    ⟨delivered, [⟨.file, "m", some (.absolute ["w", "out", "m"])⟩],
      .ok [.absolute ["w", "out", "m"]]⟩ := by
  cbv

/-- A file with the name of a tool directory and one below a directory with the name of the output are
missing in the mirror. -/
theorem files_missing :
    (run world [unit] profile).written = .ok [.absolute ["w", "out", "m"]] ∧
      world.tree.at? ["w", "env"] = some (.file ⟨#[3]⟩) ∧
      (run world [unit] profile).tree.at? ["w", "out", "env"] = none ∧
      world.tree.at? ["w", "p", "out", "x"] = some (.file ⟨#[4]⟩) ∧
      (run world [unit] profile).tree.at? ["w", "out", "p", "out", "x"] = none := by
  rw [run_world]
  exact ⟨rfl, rfl, rfl, rfl, rfl⟩

theorem run_mirrors_inside :
    (run world [unit] profile).written = .ok [.absolute ["w", "out", "m"]] ∧
      (run world [unit] profile).tree.at? ["w", "out", "m"] = some (.file "pass".toUTF8) ∧
      (run world [unit] profile).tree.at? ["w", "out", "n"] = some (.file ⟨#[2]⟩) ∧
      (run world [unit] profile).tree.at? ["w", "out", "env"] = none ∧
      (run world [unit] profile).tree.at? ["w", "out", "out", "m"] = none := by
  have written : (run world [unit] profile).written = .ok [.absolute ["w", "out", "m"]] := by
    rw [run_world]
  have found : world.resolve? (profile.projectDir.getD default) = some (.absolute ["w"]) := rfl
  have target : world.resolve? (.absolute ["w", "out"]) = some (.absolute ["w", "out"]) := rfl
  have straight : ".." ∉ world.cwd.names := by decide
  have relative : ∀ u ∈ [unit], u.unit.relative.slashes = 0 ∧ ".." ∉ u.unit.relative.names := by decide
  obtain ⟨brings, leaves, itself⟩ := run_mirrors rfl rfl found target straight relative
    (connected_of_all rfl) ⟨_, written⟩
  have taken (name : String) (member : name ∈ ["m", "n"]) : ¬LeavesOut ["w"] ["w", "out"] name := by
    have apart : ∀ name ∈ ["m", "n"], name ∉ Project.ignoredNames ∧ name ≠ "out" := by decide
    rintro (ignored | ⟨first, rest, leads, stands⟩)
    · exact (apart name member).1 ignored
    · cases leads
      exact (apart name member).2 ((Text.globMatches_literal (by decide)).mp stands)
  refine ⟨written, ?_, ?_, ?_, ?_⟩
  · exact brings ["m"] ⟨#[1]⟩ rfl (by decide) (List.forall_mem_singleton.mpr (taken "m" (by decide))) nofun
  · exact brings ["n"] ⟨#[2]⟩ rfl (by decide) (List.forall_mem_singleton.mpr (taken "n" (by decide))) nofun
  · exact leaves ["env"] ⟨"env", by decide, .inl (by decide)⟩ (by decide)
  · exact itself "out" [] rfl (Text.globMatches_self (by decide)) ["m"] (by decide)

end ProbeWeave.Delivery.Inside
