import ProbeWeave.Delivery
import ProbeWeave.Proofs.Files.Copied
import ProbeWeave.Proofs.Text.Wildcards

/-! # What a delivery does

A delivery to another directory copies the project and then writes the modules. Writing a module makes
the directories above it and puts its text to its place; nothing else changes. A module whose place
already holds a file is always written.
-/

namespace ProbeWeave

namespace Files

/-- Whether a path begins at the root and goes straight down. -/
structure Path.Straight (p : Path) : Prop where
  rooted : p.isAbsolute = true
  down : ".." ∉ p.names

theorem Path.straight_resolve {p cwd : Path} (down : ".." ∉ cwd.names) :
    (p.resolve cwd).Straight := by
  have folded (names : List String) : ∀ start, ".." ∉ start → ".." ∉ resolveNames start names := by
    induction names with
    | nil => exact fun start down => down
    | cons name rest ih =>
      intro start down
      refine ih _ ?_
      dsimp only
      split
      · exact fun member => down (List.dropLast_subset _ member)
      · rename_i other
        rw [List.mem_append, List.mem_singleton]
        rintro (member | rfl)
        · exact down member
        · exact other rfl
  refine ⟨rfl, folded _ _ ?_⟩
  split
  · exact List.not_mem_nil
  · exact down

/-- A path below another one. -/
theorem Path.names_join {p q : Path} (relative : q.slashes = 0) :
    (p.join q).names = p.names ++ q.names := by
  rw [join, if_neg (by simp [isAbsolute, relative])]

theorem Path.straight_join {p q : Path} (straight : p.Straight) (relative : q.slashes = 0)
    (down : ".." ∉ q.names) : (p.join q).Straight := by
  refine ⟨?_, ?_⟩
  · rw [join, if_neg (by simp [isAbsolute, relative])]
    exact straight.rooted
  · rw [names_join relative, List.mem_append]
    exact fun member => member.elim straight.down down

end Files

namespace Delivery

open Files FileTree Weaving Outcome

variable {t t' : FileTree} {cwd target : Path} {source : String} {place : List String}
  {bytes : ByteArray}

/-- A module that is written stands at its place, with directories above it. -/
theorem writeUnit_eq_ok (straight : target.Straight)
    (written : writeUnit t cwd target source = .ok t') :
    ∃ middle, Makes t middle target.names.dropLast ∧ middle.at? target.names ≠ some .directory ∧
      t' = middle.put target.names (.file source.toUTF8) := by
  obtain ⟨middle, made, written⟩ := bind_eq_ok.mp written
  obtain ⟨-, free, rfl⟩ := write_eq_ok straight.rooted straight.down written
  exact ⟨middle, makes_of_makeDirectoriesAt made, free, rfl⟩

/-- Writing a module changes a place only if it is that of the module or above it. -/
theorem at?_writeUnit (straight : target.Straight) (written : writeUnit t cwd target source = .ok t')
    (other : place ≠ target.names) :
    t'.at? place = t.at? place ∨ t.at? place = none ∧ place <+: target.names := by
  obtain ⟨middle, makes, -, rfl⟩ := writeUnit_eq_ok straight written
  rw [at?_put_of_ne other]
  refine (makes.eq_or place).imp_right ?_
  rintro ⟨empty, above, -⟩
  exact ⟨empty, above.trans (List.dropLast_prefix _)⟩

theorem connected_writeUnit (connected : t.Connected) (straight : target.Straight)
    (written : writeUnit t cwd target source = .ok t') : t'.Connected := by
  obtain ⟨middle, makes, free, rfl⟩ := writeUnit_eq_ok straight written
  exact (makes.connected connected).put (makes.made _ List.prefix_rfl) free _

/-- A module whose place holds a file is written there. -/
theorem exists_writeUnit (cwd : Path) (connected : t.Connected) (straight : target.Straight)
    (here : t.at? target.names = some (.file bytes)) (source : String) :
    ∃ t', writeUnit t cwd target source = .ok t' ∧
      t'.at? target.names = some (.file source.toUTF8) := by
  have parent := connected _ _ here
  have above (place : List String) (prefix_ : place <+: target.names.dropLast) :
      t.at? place = some .directory := by
    obtain ⟨more, same⟩ := prefix_
    rw [← same] at parent
    by_cases last : more = []
    · rwa [last, List.append_nil] at parent
    · exact connected.above parent last
  have clear (place : List String) (prefix_ : place <+: target.names.dropLast) (bytes : ByteArray) :
      t.at? place ≠ some (.file bytes) := by
    rw [above place prefix_]
    exact nofun
  obtain ⟨middle, made⟩ := exists_makeDirectoriesAt clear
  have makes := makes_of_makeDirectoriesAt made
  have free : middle.at? target.names ≠ some .directory := by
    rw [makes.stays here]
    exact nofun
  refine ⟨_, bind_eq_ok.mpr ⟨middle, made, (makes.connected connected).write straight.rooted
    straight.down (makes.made _ List.prefix_rfl) free _⟩, at?_put_self ?_⟩
  intro root
  rw [root, at?_nil] at here
  cases here

section Units

variable {output : Path} {units : List WovenUnit}

/-- The places that modules are written to below an output. -/
def targetsIn (output : Path) (units : List WovenUnit) : List (WovenUnit × Path) :=
  units.map fun unit => (unit, output.join unit.unit.relative)

theorem of_mem_targetsIn (straight : output.Straight)
    (relative : ∀ u ∈ units, u.unit.relative.slashes = 0 ∧ ".." ∉ u.unit.relative.names)
    {entry : WovenUnit × Path} (member : entry ∈ targetsIn output units) :
    entry.1 ∈ units ∧ entry.2.Straight ∧
      entry.2.names = output.names ++ entry.1.unit.relative.names := by
  obtain ⟨u, inUnits, rfl⟩ := List.mem_map.mp member
  obtain ⟨inside, down⟩ := relative u inUnits
  exact ⟨inUnits, Path.straight_join straight inside down, Path.names_join inside⟩

/-- What every write that is done keeps, writing all modules keeps. -/
theorem keep_writeAll {P : FileTree → Prop} {targets : List (WovenUnit × Path)}
    (each : ∀ entry ∈ targets, ∀ t t', P t → writeUnit t cwd entry.2 entry.1.source = .ok t' → P t')
    (before : P t) : P (writeAll cwd targets t).1 := by
  induction targets generalizing t with
  | nil => exact before
  | cons entry rest ih =>
    obtain ⟨unit, target⟩ := entry
    obtain ⟨first, later⟩ := List.forall_mem_cons.mp each
    rw [writeAll]
    split
    · rename_i t' written
      exact ih later (first t t' before written)
    · exact ih later before

/-- A file stays as it is if no module is written to its place. -/
theorem writeAll_keeps_file (straight : output.Straight)
    (relative : ∀ u ∈ units, u.unit.relative.slashes = 0 ∧ ".." ∉ u.unit.relative.names)
    (other : ∀ u ∈ units, place ≠ output.names ++ u.unit.relative.names)
    (here : t.at? place = some (.file bytes)) :
    (writeAll cwd (targetsIn output units) t).1.at? place = some (.file bytes) := by
  refine keep_writeAll (P := fun t => t.at? place = some (.file bytes)) ?_ here
  intro entry member t t' here written
  obtain ⟨inUnits, goes, names⟩ := of_mem_targetsIn straight relative member
  rcases at?_writeUnit goes written (names ▸ other entry.1 inUnits) with same | ⟨empty, -⟩
  · rw [same, here]
  · cases empty.symm.trans here

/-- A place stays as it is if no module is written to it or below it. -/
theorem at?_writeAll (straight : output.Straight)
    (relative : ∀ u ∈ units, u.unit.relative.slashes = 0 ∧ ".." ∉ u.unit.relative.names)
    (apart : ∀ u ∈ units, ¬place <+: output.names ++ u.unit.relative.names) :
    (writeAll cwd (targetsIn output units) t).1.at? place = t.at? place := by
  refine keep_writeAll (P := fun t' => t'.at? place = t.at? place) ?_ rfl
  intro entry member middle t' same written
  obtain ⟨inUnits, goes, names⟩ := of_mem_targetsIn straight relative member
  have below : ¬place <+: entry.2.names := names ▸ apart entry.1 inUnits
  have other : place ≠ entry.2.names := by
    intro eq
    exact below (eq ▸ List.prefix_rfl)
  rcases at?_writeUnit goes written other with kept | ⟨-, above⟩
  · rw [kept, same]
  · exact absurd above below

/-- The text of the last module with some names. -/
def lastSource? (units : List WovenUnit) (names : List String) : Option String :=
  ((units.filter fun u => u.unit.relative.names == names).getLast?).map (·.source)

theorem lastSource?_cons (unit : WovenUnit) (units : List WovenUnit) (names : List String) :
    lastSource? (unit :: units) names = (lastSource? units names).or
      (if unit.unit.relative.names = names then some unit.source else none) := by
  unfold lastSource?
  rw [List.filter_cons]
  by_cases same : unit.unit.relative.names = names
  · rw [if_pos (by simpa using same), List.getLast?_cons, if_pos same]
    cases (units.filter fun u => u.unit.relative.names == names).getLast? with
    | none => rfl
    | some last => rfl
  · rw [if_neg (by simpa using same), if_neg same, Option.or_none]

/-- Where a file stands, the text of the last module of that name stands after writing. -/
theorem writeAll_brings {names : List String} (straight : output.Straight)
    (relative : ∀ u ∈ units, u.unit.relative.slashes = 0 ∧ ".." ∉ u.unit.relative.names)
    (connected : t.Connected) (here : t.at? (output.names ++ names) = some (.file bytes)) :
    (writeAll cwd (targetsIn output units) t).1.at? (output.names ++ names) =
      some (.file ((lastSource? units names).elim bytes String.toUTF8)) := by
  induction units generalizing t bytes with
  | nil => exact here
  | cons unit rest ih =>
    obtain ⟨⟨inside, down⟩, later⟩ := List.forall_mem_cons.mp relative
    have target := Path.straight_join straight inside down
    have place : (output.join unit.unit.relative).names = output.names ++ unit.unit.relative.names :=
      Path.names_join inside
    rw [targetsIn, List.map_cons, writeAll, lastSource?_cons]
    by_cases same : unit.unit.relative.names = names
    · rw [if_pos same]
      rw [same] at place
      obtain ⟨t', written, brought⟩ := exists_writeUnit cwd connected target (place.symm ▸ here)
        unit.source
      rw [place] at brought
      rw [written]
      have last := ih later (connected_writeUnit connected target written) brought
      dsimp only
      rw [← targetsIn, last]
      cases lastSource? rest names with
      | none => rfl
      | some source => rfl
    · rw [if_neg same, Option.or_none]
      split
      · rename_i t' written
        refine ih later (connected_writeUnit connected target written) ?_
        have other : output.names ++ names ≠ (output.join unit.unit.relative).names := by
          rw [place]
          exact fun eq => same (List.append_cancel_left eq).symm
        rcases at?_writeUnit target written other with kept | ⟨empty, -⟩
        · rw [kept, here]
        · cases empty.symm.trans here
      · exact ih later connected here

end Units

/-! ### Copying the project -/

variable {w : World} {units : List WovenUnit} {profile : Profile} {project output configured : Path}
  {names : List String}

theorem isLiteral_of_mem_ignoredNames {name : String} (ignored : name ∈ Project.ignoredNames) :
    Text.IsLiteral name := by
  have all : ∀ name ∈ Project.ignoredNames, Text.IsLiteral name := by decide +kernel
  exact all name ignored

theorem passes_ignoredNames :
    Passes Project.ignoredNames names ↔ ∀ name ∈ names, name ∉ Project.ignoredNames := by
  refine forall₂_congr fun name _ => ?_
  rw [isLeftOut, List.any_eq_false]
  constructor
  · intro none ignored
    exact none name ignored ((Text.globMatches_literal (isLiteral_of_mem_ignoredNames ignored)).mpr rfl)
  · intro other pattern ignored stands
    obtain rfl := (Text.globMatches_literal (isLiteral_of_mem_ignoredNames ignored)).mp stands
    exact other ignored

theorem passes_patterns_append {patterns more : List String} :
    Passes (patterns ++ more) names ↔ Passes patterns names ∧ Passes more names := by
  simp only [Passes, isLeftOut, List.any_append, Bool.or_eq_false_iff, forall_and]

/-- Whether what has a name is left out of a copy: the name is an ignored one or, if the output lies in
the project, the first name that leads to the output stands for it. -/
def LeavesOut (project output : List String) (name : String) : Prop :=
  name ∈ Project.ignoredNames ∨
    ∃ first rest, output = project ++ first :: rest ∧ Text.globMatches first name = true

theorem passes_leftOut (same : output.slashes = project.slashes) :
    Passes (leftOut project output) names ↔ ∀ name ∈ names, ¬LeavesOut project.names output.names name := by
  have both : (∀ name ∈ names, ¬LeavesOut project.names output.names name) ↔
      (∀ name ∈ names, name ∉ Project.ignoredNames) ∧
        ∀ first rest, output.names = project.names ++ first :: rest →
          ∀ name ∈ names, Text.globMatches first name = false := by
    simp only [LeavesOut, not_or, not_exists, not_and, Bool.not_eq_true]
    grind
  rw [both, leftOut, passes_patterns_append, passes_ignoredNames]
  refine and_congr_right fun _ => ?_
  have nothing : Passes [] names := fun name _ => rfl
  by_cases inside : project.names <+: output.names
  · obtain ⟨rest, leads⟩ := inside
    have found : output.below? project = some rest := by
      rw [Path.below?, same, ← leads]
      simp
    rw [found]
    cases rest with
    | nil =>
      refine iff_of_true nothing fun first rest leads' => ?_
      rw [← leads] at leads'
      cases List.append_cancel_left leads'
    | cons first rest =>
      constructor
      · intro passes first' rest' leads' name member
        rw [← leads] at leads'
        cases List.append_cancel_left leads'
        simpa [isLeftOut] using passes name member
      · intro apart name member
        simpa [isLeftOut] using apart first rest leads.symm name member
  · have elsewhere : output.below? project = none := by
      rw [Path.below?, if_neg]
      rw [Bool.and_eq_true, not_and_or]
      exact .inr (by rwa [List.isPrefixOf_iff_prefix])
    rw [elsewhere]
    refine iff_of_true nothing fun first rest leads => ?_
    exact absurd ⟨_, leads.symm⟩ inside

/-- A delivery to another directory copies the project and writes the modules into the copy, unless the
copy is not complete. -/
theorem run_cases (apart : profile.inPlace = false) (wanted : profile.outputDir = some configured)
    (found : w.resolve? (profile.projectDir.getD default) = some project)
    (target : w.resolve? configured = some output) :
    (∃ fault, (copyProject w.tree project output).2 = .error fault ∧
        run w units profile = ⟨(copyProject w.tree project output).1, [], .error fault⟩) ∨
      (copyProject w.tree project output).2 = .ok () ∧
        (run w units profile).tree =
          (writeAll w.cwd (targetsIn output units) (copyProject w.tree project output).1).1 := by
  rw [run, apart, wanted]
  simp only [Bool.false_eq_true, if_false, found, target]
  generalize copyProject w.tree project output = outcome
  obtain ⟨t, fault | done⟩ := outcome
  · exact .inl ⟨fault, rfl, rfl⟩
  · exact .inr ⟨rfl, rfl⟩

/-- A project is not copied onto itself. -/
theorem copyProject_cases (t : FileTree) (project output : Path) :
    (output = project ∧ (copyProject t project output).1 = t ∧
        ∃ fault, (copyProject t project output).2 = .error fault) ∨
      output ≠ project ∧ copyProject t project output =
        ((t.copyDirectory (leftOut project output) project.names output.names).1,
          (t.copyDirectory (leftOut project output) project.names output.names).2.mapError .notCopied) := by
  unfold copyProject
  by_cases same : output = project
  · rw [if_pos (by simpa using same)]
    exact .inl ⟨same, rfl, _, rfl⟩
  · rw [if_neg (by simpa using same)]
    exact .inr ⟨same, rfl⟩

theorem straight_of_resolve? (down : ".." ∉ w.cwd.names) {p q : Path} (resolved : w.resolve? p = some q) :
    q.Straight ∧ q.slashes = 1 := by
  obtain ⟨expanded, -, rfl⟩ := Option.map_eq_some_iff.mp resolved
  exact ⟨Path.straight_resolve down, rfl⟩

end Delivery

end ProbeWeave
