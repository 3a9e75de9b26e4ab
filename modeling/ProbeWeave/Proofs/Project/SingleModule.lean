import Mathlib
import ProbeWeave.Proofs.Project.Analysed
import ProbeWeave.Proofs.Text.Utf8

/-! # Projects of a single module

A directory that holds one file is read as a project of the module in that file, and analysed as such.
-/

namespace ProbeWeave.Project.SingleModule

open Syntax Files ProbeWeave.Graph Probe

/-- The module in a file of a text, given the statements of the text. -/
def unit (source : String) (body : List Stmt) : SourceUnit where
  path := .absolute ["p", "m.py"]
  relative := ⟨0, ["m.py"]⟩
  name := "m"
  isPackage := false
  source := source
  body := body

/-- A directory with a file of a text. -/
def tree (source : String) : FileTree :=
  ⟨[(["p"], .directory), (["p", "m.py"], .file source.toUTF8)]⟩

/-- The project of a module. -/
def project (m : Module) (guesses : Bool) : Project :=
  ⟨.absolute ["p"], ⟨[("m", m)]⟩, [], guesses⟩

variable {source : String} {body : List Stmt}

theorem readUnit_unit (parsed : parseModule source = .ok body) :
    readUnit ["p"] false ["p", "m.py"] source.toUTF8 = .unit (unit source body) := by
  have named : moduleName ["m.py"] = ("m", false) := by decide +kernel
  exact readUnit_of_parsed (Text.Utf8.decode_toUTF8 source) parsed rfl rfl named

/-- The module is all that is loaded. -/
theorem load_tree_eq (parsed : parseModule source = .ok body) (guesses : Bool) :
    (load (tree source) ["p"] [] guesses).1 =
      (unit source body).index.withAttributes.map (project · guesses) := by
  have files : moduleFiles (tree source) ((tree source).depth + 1) ["p"] = [["p", "m.py"]] := by
    cbv
  have flat : (tree source).isDirectory (["p"] ++ ["src"]) = false := by cbv
  have there : (tree source).at? ["p", "m.py"] = some (.file source.toUTF8) := rfl
  have added : addFiles (tree source) ["p"] false [["p", "m.py"]] .empty =
      (.ok ⟨[("m", (unit source body).index)]⟩, []) := by
    simp only [addFiles, there, readUnit_unit parsed]
    rfl
  simp only [load, files, flat, added]
  simp only [bind, Except.bind, List.mapM_cons, List.mapM_nil, pure, Except.pure]
  cases (unit source body).index.withAttributes <;> rfl

theorem load_tree {m : Module} (parsed : parseModule source = .ok body)
    (typed : (unit source body).index.withAttributes = .ok m) (guesses : Bool) :
    (load (tree source) ["p"] [] guesses).1 = .ok (project m guesses) := by
  rw [load_tree_eq parsed, typed]
  rfl

/-- All there is is a directory with a file of a text. -/
def world (source : String) : World :=
  ⟨tree source, .absolute [], .absolute []⟩

theorem ofProfile_world {profile : Profile} {a : Analysis}
    (directory : profile.projectDir = some (.absolute ["p"]))
    (named : profile.methodName.isEmpty = false)
    (loaded : (load (tree source) ["p"] profile.packageList profile.ambiguousFallback).1 =
      .ok a.project)
    (entered : a.project.entry? (some profile.className) profile.methodName = some a.entry)
    (exclusions : a.exclusions = profile.excludeList)
    (graph : a.project.callGraph profile.excludeList profile.recursive a.entry = .ok a.graph)
    (registry : a.registry = .ofGraph a.graph (homeOf a.entry)) :
    (Analysis.ofProfile (world source) profile).1 = .ok a := by
  have resolved : (world source).resolve? (.ofText (Path.absolute ["p"]).text) =
      some (.absolute ["p"]) := by cbv
  refine Analysis.ofProfile_eq_ok.mpr ⟨.absolute ["p"], a.project, directory, named, ?_, ?_⟩
  · exact Analysis.openAt_eq_ok.mpr ⟨.absolute ["p"], resolved, rfl, loaded⟩
  · exact Analysis.ofProject_eq_ok.mpr ⟨a.entry, a.graph, entered, graph, by
      rw [← exclusions, ← registry]⟩

end ProbeWeave.Project.SingleModule
