import ProbeWeave.Project.Load
import ProbeWeave.Proofs.Files.Places
import ProbeWeave.Proofs.Project.Annotations
import ProbeWeave.Proofs.Project.SingleModule

/-! # Files that are left out

All files below the directory of a project are read that end like modules and stand in no directory
that is passed over. One that is no UTF-8 or cannot be parsed is left out with a warning, and it
makes no other difference. But a null character in a file ends the reading of all of them, and so
does an annotation of an attribute with a text that has a null character or a surrogate in it.
-/

set_option linter.dupNamespace false

namespace ProbeWeave

namespace Project

open Syntax Files Outcome

/-! ### The files that are read -/

variable {t : FileTree} {root names directory : List String} {files : List (List String)}
  {modules : Dictionary String Module}

/-- The name of a file that holds a module. -/
def moduleFile? : String × Content → Option String
  | (name, .file _) => if name.endsWith moduleEnding then some name else none
  | (_, .directory) => none

/-- The name of a directory that is searched. -/
def searchedDirectory? : String × Content → Option String
  | (name, .directory) => if isSearched name then some name else none
  | (_, .file _) => none

/-- Whether an entry is a directory. -/
def isDirectoryEntry (entry : String × Content) : Bool :=
  match entry.2 with
  | .directory => true
  | .file _ => false

theorem moduleFiles_succ (t : FileTree) (levels : Nat) (directory : List String) :
    moduleFiles t (levels + 1) directory =
      (sortNames ((t.listing directory).filterMap moduleFile?)).map (directory ++ [·]) ++
        (sortNames ((t.listing directory).filterMap searchedDirectory?)).flatMap fun name =>
          moduleFiles t levels (directory ++ [name]) := by
  have files (entries : List (String × Content)) :
      ((entries.filter fun entry => !isDirectoryEntry entry).map Prod.fst).filter
        (·.endsWith moduleEnding) = entries.filterMap moduleFile? := by
    simp only [← List.filterMap_eq_map, List.filterMap_filter, List.filter_filterMap]
    refine List.filterMap_congr fun entry _ => ?_
    obtain ⟨name, _ | bytes⟩ := entry <;> simp [isDirectoryEntry, moduleFile?, Option.filter_some]
  have directories (entries : List (String × Content)) :
      ((entries.filter isDirectoryEntry).map Prod.fst).filter isSearched =
        entries.filterMap searchedDirectory? := by
    simp only [← List.filterMap_eq_map, List.filterMap_filter, List.filter_filterMap]
    refine List.filterMap_congr fun entry _ => ?_
    obtain ⟨name, _ | bytes⟩ := entry <;> simp [isDirectoryEntry, searchedDirectory?, Option.filter_some]
  simp only [moduleFiles, List.partition_eq_filter_filter]
  rw [← files, ← directories]
  rfl

theorem moduleFile?_eq_some {entry : String × Content} {name : String} :
    moduleFile? entry = some name ↔
      ∃ bytes, entry = (name, .file bytes) ∧ name.endsWith moduleEnding = true := by
  obtain ⟨name', _ | bytes⟩ := entry <;> simp [moduleFile?]
  grind

theorem searchedDirectory?_eq_some {entry : String × Content} {name : String} :
    searchedDirectory? entry = some name ↔
      entry = (name, .directory) ∧ isSearched name = true := by
  obtain ⟨name', _ | bytes⟩ := entry <;> simp [searchedDirectory?]
  grind

theorem mem_moduleFiles_succ (distinct : t.Distinct) {levels : Nat} :
    names ∈ moduleFiles t (levels + 1) directory ↔
      (∃ name bytes, t.at? (directory ++ [name]) = some (.file bytes) ∧
        name.endsWith moduleEnding = true ∧ names = directory ++ [name]) ∨
      ∃ name, t.at? (directory ++ [name]) = some .directory ∧ isSearched name = true ∧
        names ∈ moduleFiles t levels (directory ++ [name]) := by
  simp only [moduleFiles_succ, List.mem_append, List.mem_map, List.mem_flatMap, mem_sortNames,
    List.mem_filterMap, moduleFile?_eq_some, searchedDirectory?_eq_some, ← distinct.mem_listing]
  grind

/-- The files of modules below a directory of a project: those that end like modules and that no
directory leads to that is not searched. -/
def Searched (t : FileTree) (root names : List String) : Prop :=
  t.isFile names = true ∧ ∃ directories name, names = root ++ directories ++ [name] ∧
    name.endsWith moduleEnding = true ∧ ∀ d ∈ directories, isSearched d = true

theorem mem_moduleFiles (distinct : t.Distinct) (connected : t.Connected) {levels : Nat} :
    names ∈ moduleFiles t levels directory ↔
      t.isFile names = true ∧ ∃ directories name, names = directory ++ directories ++ [name] ∧
        name.endsWith moduleEnding = true ∧ (∀ d ∈ directories, isSearched d = true) ∧
        directories.length < levels := by
  induction levels generalizing directory with
  | zero => simp [moduleFiles]
  | succ levels ih =>
    rw [mem_moduleFiles_succ distinct]
    constructor
    · rintro (⟨name, bytes, here, ends, rfl⟩ | ⟨first, here, searched, below⟩)
      · exact ⟨FileTree.isFile_iff.mpr ⟨bytes, here⟩, [], name, by simp, ends, by simp⟩
      · obtain ⟨file, rest, name, rfl, ends, others, bound⟩ := ih.mp below
        refine ⟨file, first :: rest, name, by simp, ends, ?_, by simpa using bound⟩
        exact List.forall_mem_cons.mpr ⟨searched, others⟩
    · rintro ⟨file, directories, name, rfl, ends, searched, bound⟩
      cases directories with
      | nil =>
        obtain ⟨bytes, here⟩ := FileTree.isFile_iff.mp file
        exact .inl ⟨name, bytes, by simpa using here, ends, by simp⟩
      | cons first rest =>
        obtain ⟨here, others⟩ := List.forall_mem_cons.mp searched
        obtain ⟨bytes, there⟩ := FileTree.isFile_iff.mp file
        refine .inr ⟨first, ?_, here, ih.mpr ⟨file, rest, name, by simp, ends, others, ?_⟩⟩
        · have rejoined : t.at? ((directory ++ [first]) ++ (rest ++ [name])) = some (.file bytes) := by
            simpa using there
          exact connected.above rejoined (by simp)
        · simpa using bound

theorem mem_moduleFiles_depth (distinct : t.Distinct) (connected : t.Connected) :
    names ∈ moduleFiles t (t.depth + 1) root ↔ Searched t root names := by
  rw [mem_moduleFiles distinct connected]
  refine and_congr_right fun file => ?_
  constructor
  · rintro ⟨directories, name, same, ends, searched, -⟩
    exact ⟨directories, name, same, ends, searched⟩
  · rintro ⟨directories, name, rfl, ends, searched⟩
    obtain ⟨bytes, here⟩ := FileTree.isFile_iff.mp file
    have bound := FileTree.length_le_depth here
    simp only [List.length_append, List.length_singleton] at bound
    exact ⟨directories, name, rfl, ends, searched, by omega⟩

/-- What is found below a directory is reached through it. -/
theorem below_of_mem_moduleFiles {levels : Nat} (member : names ∈ moduleFiles t levels directory) :
    ∃ name rest, names = directory ++ name :: rest := by
  induction levels generalizing directory with
  | zero => simp [moduleFiles] at member
  | succ levels ih =>
    rw [moduleFiles_succ, List.mem_append, List.mem_map, List.mem_flatMap] at member
    rcases member with ⟨name, -, rfl⟩ | ⟨first, -, below⟩
    · exact ⟨name, [], rfl⟩
    · obtain ⟨name, rest, rfl⟩ := ih below
      exact ⟨first, name :: rest, by simp⟩

theorem nodup_moduleFiles (distinct : t.Distinct) (levels : Nat) (directory : List String) :
    (moduleFiles t levels directory).Nodup := by
  induction levels generalizing directory with
  | zero => exact List.nodup_nil
  | succ levels ih =>
    have once (f : String × Content → Option String)
        (tells : ∀ entry name, f entry = some name → entry.1 = name) :
        (sortNames ((t.listing directory).filterMap f)).Nodup := by
      refine nodup_sortNames ?_
      have names := List.pairwise_map.mp (distinct.nodup_listing directory)
      refine List.Pairwise.filterMap f (fun entry other apart name here name' there => ?_) names
      rwa [← tells entry name here, ← tells other name' there]
    have files := once moduleFile? fun entry name found => by
      obtain ⟨bytes, rfl, -⟩ := moduleFile?_eq_some.mp found
      rfl
    have directories := once searchedDirectory? fun entry name found => by
      obtain ⟨rfl, -⟩ := searchedDirectory?_eq_some.mp found
      rfl
    rw [moduleFiles_succ]
    refine List.nodup_append'.mpr ⟨files.map ?_, List.nodup_flatMap.mpr ⟨?_, ?_⟩, ?_⟩
    · exact fun name other same => by simpa using same
    · exact fun name _ => ih _
    · refine directories.imp fun {name other} apart found below below' => ?_
      obtain ⟨first, rest, rfl⟩ := below_of_mem_moduleFiles below
      obtain ⟨first', rest', same⟩ := below_of_mem_moduleFiles below'
      simp only [List.append_assoc, List.append_cancel_left_eq, List.cons_append, List.nil_append,
        List.cons.injEq] at same
      exact apart same.1
    · intro found here below
      obtain ⟨name, -, rfl⟩ := List.mem_map.mp here
      obtain ⟨first, -, below⟩ := List.mem_flatMap.mp below
      obtain ⟨next, rest, same⟩ := below_of_mem_moduleFiles below
      simp at same

/-- No bound on the levels beyond the depth of the tree matters. -/
theorem moduleFiles_enough {levels : Nat} (bound : t.depth ≤ directory.length + levels) :
    moduleFiles t (levels + 1) directory = moduleFiles t levels directory := by
  induction levels generalizing directory with
  | zero =>
    have empty : t.listing directory = [] := by
      refine List.eq_nil_iff_forall_not_mem.mpr fun entry listed => ?_
      have deep := FileTree.length_le_foldl_max (n := 0) (.inl (FileTree.mem_listing_iff.mp listed))
      rw [List.length_append, List.length_singleton] at deep
      change _ ≤ t.depth at deep
      omega
    simp [empty, sortNames, moduleFiles]
  | succ levels ih =>
    have deeper (name : String) : moduleFiles t (levels + 1) (directory ++ [name]) =
        moduleFiles t levels (directory ++ [name]) :=
      ih (by simp only [List.length_append, List.length_singleton]; omega)
    rw [moduleFiles_succ, moduleFiles_succ]
    simp only [deeper]

theorem moduleFiles_deep {levels : Nat} (bound : t.depth ≤ directory.length + levels) (more : Nat) :
    moduleFiles t (levels + more) directory = moduleFiles t levels directory := by
  induction more with
  | zero => rfl
  | succ more ih => rw [← Nat.add_assoc, moduleFiles_enough (by omega), ih]

/-- A removed file is not found, and all others are. -/
theorem moduleFiles_remove (distinct : t.Distinct) {bytes : ByteArray}
    (file : t.at? names = some (.file bytes)) (levels : Nat) (outside : ¬ names <+: directory) :
    moduleFiles (t.remove names) levels directory =
      (moduleFiles t levels directory).filter (· != names) := by
  induction levels generalizing directory with
  | zero => rfl
  | succ levels ih =>
    have apart {name : String} (listed : (name, .directory) ∈ t.listing directory) :
        directory ++ [name] ≠ names := by
      rintro rfl
      rw [distinct.mem_listing, file] at listed
      cases listed
    have files : ((t.remove names).listing directory).filterMap moduleFile? =
        ((t.listing directory).filterMap moduleFile?).filter (directory ++ [·] != names) := by
      rw [FileTree.listing_remove outside, List.filterMap_filter, List.filter_filterMap]
      refine List.filterMap_congr fun entry _ => ?_
      obtain ⟨name, _ | bytes⟩ := entry
      · simp [moduleFile?]
      · by_cases ends : name.endsWith moduleEnding <;> simp [moduleFile?, ends, Option.filter_some]
    have directories : ((t.remove names).listing directory).filterMap searchedDirectory? =
        (t.listing directory).filterMap searchedDirectory? := by
      rw [FileTree.listing_remove outside, List.filterMap_filter]
      refine List.filterMap_congr fun entry listed => ?_
      obtain ⟨name, _ | bytes⟩ := entry
      · simp [apart listed]
      · simp [searchedDirectory?]
    rw [moduleFiles_succ, moduleFiles_succ, files, directories, sortNames_filter, List.filter_append,
      List.filter_map, List.filter_flatMap]
    congr 1
    refine List.flatMap_congr fun name member => ih fun above => ?_
    obtain ⟨entry, listed, found⟩ := List.mem_filterMap.mp (mem_sortNames.mp member)
    obtain ⟨rfl, -⟩ := searchedDirectory?_eq_some.mp found
    rcases List.prefix_concat_iff.mp above with same | above
    · exact apart listed same.symm
    · exact outside above

/-! ### Reading them -/

/-- What comes of reading the file at the end of some names. -/
def outcome? (t : FileTree) (root names : List String) : Option UnitOutcome :=
  match t.at? names with
  | some (.file bytes) => some (readUnit root (t.isDirectory (root ++ ["src"])) names bytes)
  | _ => none

/-- The module that a file holds. -/
def unit? (t : FileTree) (root names : List String) : Option SourceUnit :=
  match outcome? t root names with
  | some (.unit u) => some u
  | _ => none

/-- The warning about a file that is left out. -/
def warning? (t : FileTree) (root names : List String) : Option Event :=
  match outcome? t root names with
  | some (.leftOut reason) => some ⟨.warning, reason, some (.absolute names)⟩
  | _ => none

/-- Adds a module unless it has no name or one that is taken. -/
def place (modules : Dictionary String Module) (u : SourceUnit) : Dictionary String Module :=
  if u.name.isEmpty || modules.contains u.name then modules else modules.put u.name u.index

theorem get?_foldl_place (units : List SourceUnit) (modules : Dictionary String Module)
    (name : String) :
    (units.foldl place modules).get? name =
      (modules.get? name).or
        ((units.find? fun u => !u.name.isEmpty && u.name == name).map (·.index)) := by
  induction units generalizing modules with
  | nil => simp
  | cons u rest ih =>
    rw [List.foldl_cons, ih, place, List.find?_cons]
    by_cases unnamed : u.name.isEmpty = true
    · simp [unnamed]
    by_cases same : u.name = name
    · subst same
      by_cases taken : modules.contains u.name = true
      · obtain ⟨m, known⟩ := Option.isSome_iff_exists.mp taken
        simp [unnamed, taken, known]
      · have free : modules.get? u.name = none := by
          simpa [Dictionary.contains] using taken
        simp [unnamed, taken, free, Dictionary.get?_put_self]
    · have other : (modules.put u.name u.index).get? name = modules.get? name :=
        Dictionary.get?_put_of_ne (fun eq => same eq.symm) _ _
      have unlike : (!u.name.isEmpty && u.name == name) = false := by simp [same]
      rw [unlike]
      split
      · rfl
      · rw [other]

theorem addFiles_cons (t : FileTree) (root names : List String) (rest : List (List String))
    (modules : Dictionary String Module) :
    addFiles t root (t.isDirectory (root ++ ["src"])) (names :: rest) modules =
      match outcome? t root names with
      | some (.fault fault) => (.error fault, [])
      | some (.leftOut reason) =>
        let (result, events) := addFiles t root (t.isDirectory (root ++ ["src"])) rest modules
        (result, ⟨.warning, reason, some (.absolute names)⟩ :: events)
      | some (.unit u) => addFiles t root (t.isDirectory (root ++ ["src"])) rest (place modules u)
      | none => addFiles t root (t.isDirectory (root ++ ["src"])) rest modules := by
  rw [addFiles, outcome?]
  cases t.at? names with
  | none => rfl
  | some content =>
    cases content with
    | directory => rfl
    | file bytes =>
      dsimp only
      cases readUnit root (t.isDirectory (root ++ ["src"])) names bytes <;> rfl

/-- Reading goes on to the end if nothing that is read is a fault. -/
theorem addFiles_eq (read : ∀ names ∈ files, ∀ fault, outcome? t root names ≠ some (.fault fault))
    (modules : Dictionary String Module) :
    addFiles t root (t.isDirectory (root ++ ["src"])) files modules =
      (.ok ((files.filterMap (unit? t root)).foldl place modules),
        files.filterMap (warning? t root)) := by
  induction files generalizing modules with
  | nil => rfl
  | cons names rest ih =>
    obtain ⟨here, others⟩ := List.forall_mem_cons.mp read
    rw [addFiles_cons, List.filterMap_cons, List.filterMap_cons, unit?, warning?]
    cases came : outcome? t root names with
    | none => exact ih others modules
    | some outcome =>
      cases outcome with
      | unit u => exact ih others (place modules u)
      | leftOut reason => simp only [ih others]
      | fault fault => exact absurd came (here fault)

/-- A fault of one file is a fault of them all. -/
theorem addFiles_fault {fault : Fault} (member : names ∈ files)
    (failed : outcome? t root names = some (.fault fault)) (modules : Dictionary String Module) :
    ∃ first, (addFiles t root (t.isDirectory (root ++ ["src"])) files modules).1 = .error first := by
  induction files generalizing modules with
  | nil => cases member
  | cons first rest ih =>
    rw [addFiles_cons]
    rcases List.mem_cons.mp member with rfl | later
    · rw [failed]
      exact ⟨fault, rfl⟩
    · cases outcome? t root first with
      | none => exact ih later modules
      | some outcome =>
        cases outcome with
        | unit u => exact ih later (place modules u)
        | leftOut reason => exact ih later modules
        | fault fault => exact ⟨fault, rfl⟩

/-- A file that is left out makes no difference but for its warning. -/
theorem addFiles_without {reason : String} (left : outcome? t root names = some (.leftOut reason))
    (others : ∀ other ∈ files, other ≠ names → outcome? (t.remove names) root other =
      outcome? t root other) (modules : Dictionary String Module) :
    addFiles (t.remove names) root ((t.remove names).isDirectory (root ++ ["src"]))
        (files.filter (· != names)) modules =
      ((addFiles t root (t.isDirectory (root ++ ["src"])) files modules).1,
        (addFiles t root (t.isDirectory (root ++ ["src"])) files modules).2.filter
          (·.file != some (.absolute names))) := by
  induction files generalizing modules with
  | nil => rfl
  | cons first rest ih =>
    obtain ⟨here, later⟩ := List.forall_mem_cons.mp others
    by_cases same : first = names
    · subst same
      rw [List.filter_cons_of_neg (by simp), ih later, addFiles_cons, left]
      simp
    · rw [List.filter_cons_of_pos (by simpa using same), addFiles_cons, addFiles_cons, here same]
      cases outcome? t root first with
      | none => exact ih later modules
      | some outcome =>
        cases outcome with
        | unit u => exact ih later (place modules u)
        | leftOut reason =>
          have kept : (some (Path.absolute first) != some (Path.absolute names)) = true := by
            simpa [Path.absolute] using same
          simp only [ih later, List.filter_cons, kept, if_true]
        | fault fault => rfl

/-! ### Opening a project -/

/-- A file is a text with a null character in it. -/
def Refused (t : FileTree) (names : List String) : Prop :=
  ∃ bytes source, t.at? names = some (.file bytes) ∧
    Text.Utf8.decode (bytes.toList.map UInt8.toNat) = .ok source ∧ '\x00' ∈ source.toList

/-- A file is no UTF-8, or it is a text without a null character that does not parse. -/
def LeftOut (t : FileTree) (names : List String) : Prop :=
  ∃ bytes, t.at? names = some (.file bytes) ∧
    ((∃ fault, Text.Utf8.decode (bytes.toList.map UInt8.toNat) = .error fault) ∨
      ∃ source fault, Text.Utf8.decode (bytes.toList.map UInt8.toNat) = .ok source ∧
        '\x00' ∉ source.toList ∧ parseModule source = .error fault)

/-- The module of a name: of the files that give it this name, the first counts. -/
def unitNamed? (t : FileTree) (root : List String) (name : String) : Option SourceUnit :=
  ((moduleFiles t (t.depth + 1) root).filterMap (unit? t root)).find? fun u =>
    !u.name.isEmpty && u.name == name

theorem outcome?_eq_some {outcome : UnitOutcome} :
    outcome? t root names = some outcome ↔
      ∃ bytes, t.at? names = some (.file bytes) ∧
        readUnit root (t.isDirectory (root ++ ["src"])) names bytes = outcome := by
  rw [outcome?]
  split
  · rename_i bytes here
    simp [here]
  · rename_i other
    simpa using fun bytes here => absurd here (other bytes)

theorem refused_iff : Refused t names ↔ ∃ fault, outcome? t root names = some (.fault fault) := by
  simp only [outcome?_eq_some]
  constructor
  · rintro ⟨bytes, source, here, decoded, zero⟩
    have parsed := parseModule_zeroCharacter.mpr zero
    exact ⟨.zeroCharacter, bytes, here, by simp only [readUnit, decoded, parsed]⟩
  · rintro ⟨fault, bytes, here, read⟩
    simp only [readUnit] at read
    split at read
    · cases read
    · rename_i source decoded
      split at read
      · rename_i parsed
        exact ⟨bytes, source, here, decoded, parseModule_zeroCharacter.mp parsed⟩
      · cases read
      · cases read

theorem leftOut_iff :
    LeftOut t names ↔ ∃ reason, outcome? t root names = some (.leftOut reason) := by
  simp only [outcome?_eq_some]
  constructor
  · rintro ⟨bytes, here, ⟨fault, decoded⟩ | ⟨source, fault, decoded, noZero, parsed⟩⟩
    · exact ⟨_, bytes, here, by simp only [readUnit, decoded]; rfl⟩
    · cases fault with
      | zeroCharacter => exact absurd (parseModule_zeroCharacter.mp parsed) noZero
      | _ => exact ⟨_, bytes, here, by simp only [readUnit, decoded, parsed]; rfl⟩
  · rintro ⟨reason, bytes, here, read⟩
    refine ⟨bytes, here, ?_⟩
    simp only [readUnit] at read
    split at read
    · rename_i fault decoded
      exact .inl ⟨fault, decoded⟩
    · rename_i source decoded
      split at read
      · cases read
      · rename_i fault other parsed
        refine .inr ⟨source, fault, decoded, fun zero => other ?_, parsed⟩
        rw [parseModule_zeroCharacter.mpr zero, Except.error.injEq] at parsed
        rw [parsed]
      · cases read

/-- All files of a project. -/
def filesOf (t : FileTree) (root : List String) : List (List String) :=
  moduleFiles t (t.depth + 1) root

theorem filesOf_remove (distinct : t.Distinct) (searched : names ∈ filesOf t root)
    {bytes : ByteArray} (file : t.at? names = some (.file bytes)) :
    filesOf (t.remove names) root = (filesOf t root).filter (· != names) := by
  have outside : ¬ names <+: root := by
    obtain ⟨name, rest, rfl⟩ := below_of_mem_moduleFiles searched
    exact fun above => by simpa using above.length_le
  -- Both trees are searched with one bound that is enough for either.
  have before : moduleFiles t (t.depth + 1 + (t.remove names).depth) root = filesOf t root :=
    moduleFiles_deep (by omega) _
  have after : moduleFiles (t.remove names) ((t.remove names).depth + 1 + t.depth) root =
      filesOf (t.remove names) root :=
    moduleFiles_deep (by omega) _
  rw [← before, ← after, ← moduleFiles_remove distinct file _ outside]
  congr 1
  omega

/-- What reading all files gives. -/
def readAll (t : FileTree) (root : List String) :
    Except Fault (Dictionary String Module) × List Event :=
  addFiles t root (t.isDirectory (root ++ ["src"])) (filesOf t root) .empty

/-- What is read of the modules of a project makes the project. -/
def assemble (root packages : List String) (guesses : Bool)
    (modules : Except Fault (Dictionary String Module)) : Except Fault Project := do
  let entries ← (← modules).entries.mapM fun (name, m) => return (name, ← m.withAttributes)
  return ⟨.absolute root, ⟨entries⟩, packages.filter (· != ""), guesses⟩

theorem load_eq (t : FileTree) (root packages : List String) (guesses : Bool) :
    load t root packages guesses =
      (assemble root packages guesses (readAll t root).1, (readAll t root).2) := rfl

/-- The modules of a project before the attributes of their classes are typed. -/
def placed (t : FileTree) (root : List String) : Dictionary String Module :=
  ((filesOf t root).filterMap (unit? t root)).foldl place .empty

theorem distinct_placed (t : FileTree) (root : List String) : (placed t root).Distinct := by
  have step (units : List SourceUnit) (modules : Dictionary String Module)
      (distinct : modules.Distinct) : (units.foldl place modules).Distinct := by
    induction units generalizing modules with
    | nil => exact distinct
    | cons u rest ih =>
      refine ih _ ?_
      rw [place]
      split
      · exact distinct
      · exact distinct.put _ _
  exact step _ _ List.nodup_nil

theorem get?_placed (name : String) :
    (placed t root).get? name = (unitNamed? t root name).map (·.index) :=
  (get?_foldl_place _ _ _).trans (Option.none_or ..)

theorem readAll_eq (read : ∀ names ∈ filesOf t root, ¬ Refused t names) :
    readAll t root = (.ok (placed t root), (filesOf t root).filterMap (warning? t root)) :=
  addFiles_eq (fun names member fault came => read names member (refused_iff.mpr ⟨fault, came⟩)) _

theorem readAll_succeeds (t : FileTree) (root : List String) :
    Succeeds (readAll t root).1 ↔ ∀ names ∈ filesOf t root, ¬ Refused t names := by
  constructor
  · rintro ⟨modules, success⟩ names member refused
    obtain ⟨fault, came⟩ : ∃ fault, outcome? t root names = some (.fault fault) :=
      refused_iff.mp refused
    obtain ⟨first, failed⟩ := addFiles_fault member came .empty
    rw [readAll, failed] at success
    cases success
  · intro read
    rw [readAll_eq read]
    exact succeeds_ok _

/-- Modules make a project unless an annotation that is looked into is faulty. -/
theorem assemble_succeeds (root packages : List String) (guesses : Bool)
    (modules : Dictionary String Module) :
    Succeeds (assemble root packages guesses (.ok modules)) ↔
      ∀ m ∈ modules.values, ∀ c ∈ m.classes.values, ∀ type ∈ c.annotations, ¬ Faulty type := by
  have each (entry : String × Module) :
      Succeeds (do return (entry.1, ← entry.2.withAttributes) : Except Fault (String × Module)) ↔
        ∀ c ∈ entry.2.classes.values, ∀ type ∈ c.annotations, ¬ Faulty type := by
    rw [succeeds_bind_pure, Module.succeeds_withAttributes]
  refine (succeeds_bind_pure.trans (succeeds_mapM _)).trans ?_
  simp only [each, Dictionary.values, List.forall_mem_map]

theorem mem_values_placed {m : Module} :
    m ∈ (placed t root).values ↔ ∃ name u, unitNamed? t root name = some u ∧ u.index = m := by
  simp only [Dictionary.values, List.mem_map, Prod.exists, exists_eq_right,
    ← (distinct_placed t root).get?_eq_some, get?_placed, Option.map_eq_some_iff]

/-- A project is read unless a file has a null character or an annotation that is looked into is
faulty. -/
theorem load_succeeds (t : FileTree) (root packages : List String) (guesses : Bool) :
    Succeeds (load t root packages guesses).1 ↔
      (∀ names ∈ filesOf t root, ¬ Refused t names) ∧
      ∀ name u, unitNamed? t root name = some u →
        ∀ c ∈ u.index.classes.values, ∀ type ∈ c.annotations, ¬ Faulty type := by
  rw [load_eq, ← readAll_succeeds]
  by_cases read : Succeeds (readAll t root).1
  · rw [and_iff_right read, readAll_eq ((readAll_succeeds t root).mp read), assemble_succeeds]
    simp only [mem_values_placed]
    grind
  · refine iff_of_false ?_ fun both => read both.1
    rintro ⟨p, success⟩
    obtain ⟨modules, found, -⟩ := bind_eq_ok.mp success
    exact read ⟨modules, found⟩

/-- The modules that are read are those that their files give their names first. -/
theorem load_units {packages : List String} {guesses : Bool} {p : Project}
    (success : (load t root packages guesses).1 = .ok p) (name : String) :
    (p.modules.get? name).map (·.unit) = unitNamed? t root name := by
  have read := ((load_succeeds t root packages guesses).mp ⟨p, success⟩).1
  rw [load_eq, readAll_eq read] at success
  obtain ⟨_, ⟨⟩, success⟩ := bind_eq_ok.mp success
  obtain ⟨entries, typed, success⟩ := bind_eq_ok.mp success
  obtain rfl := pure_eq_ok.mp success
  obtain ⟨sameKeys, origin⟩ := Dictionary.mapM_entries typed
  have distinct : (⟨entries⟩ : Dictionary String Module).Distinct := by
    rw [Dictionary.Distinct, Dictionary.keys, sameKeys]
    exact distinct_placed t root
  have before : (placed t root).get? name = (unitNamed? t root name).map (·.index) :=
    get?_placed name
  cases known : (⟨entries⟩ : Dictionary String Module).get? name with
  | none =>
    have absent : name ∉ (placed t root).keys := by
      rw [Dictionary.keys, ← sameKeys]
      exact mt Dictionary.mem_keys.mp (by simp [known])
    rw [Dictionary.mem_keys, before] at absent
    exact (by simpa using absent : unitNamed? t root name = none).symm
  | some m =>
    obtain ⟨old, member, typed⟩ := origin name m (distinct.get?_eq_some.mp known)
    rw [(distinct_placed t root).get?_eq_some.mpr member] at before
    obtain ⟨u, counts, rfl⟩ := Option.map_eq_some_iff.mp before.symm
    rw [counts, Option.map_some, Module.withAttributes_unit typed, SourceUnit.index_unit]

theorem readAll_without (distinct : t.Distinct) (connected : t.Connected)
    (searched : names ∈ filesOf t root) (left : LeftOut t names) :
    readAll (t.remove names) root =
      ((readAll t root).1, (readAll t root).2.filter (·.file != some (.absolute names))) := by
  obtain ⟨reason, came⟩ : ∃ reason, outcome? t root names = some (.leftOut reason) :=
    leftOut_iff.mp left
  obtain ⟨bytes, here, -⟩ := outcome?_eq_some.mp came
  have sources : (t.remove names).isDirectory (root ++ ["src"]) = t.isDirectory (root ++ ["src"]) := by
    by_cases same : root ++ ["src"] = names
    · rw [same, FileTree.isDirectory, FileTree.isDirectory, here,
        FileTree.at?_remove (by simp [← same]), if_pos List.prefix_rfl]
    · rw [FileTree.isDirectory, FileTree.isDirectory, connected.at?_remove here same]
  rw [readAll, filesOf_remove distinct searched here]
  refine addFiles_without came (fun other _ apart => ?_) .empty
  rw [outcome?, outcome?, connected.at?_remove here apart, sources]

theorem load_without (distinct : t.Distinct) (connected : t.Connected)
    (searched : names ∈ filesOf t root) (left : LeftOut t names) (packages : List String)
    (guesses : Bool) :
    load (t.remove names) root packages guesses =
      ((load t root packages guesses).1,
        (load t root packages guesses).2.filter (·.file != some (.absolute names))) := by
  rw [load_eq, load_eq, readAll_without distinct connected searched left]

theorem warning?_file {e : Event} (warned : warning? t root names = some e) :
    e.file = some (.absolute names) := by
  rw [warning?] at warned
  split at warned
  · cases warned
    rfl
  · cases warned

theorem no_warnings_about (other : names ∉ files) :
    (files.filterMap (warning? t root)).filter (·.file == some (.absolute names)) = [] := by
  refine List.filter_eq_nil_iff.mpr fun e warned about => other ?_
  obtain ⟨file, member, warned⟩ := List.mem_filterMap.mp warned
  have same := (warning?_file warned).symm.trans (eq_of_beq about)
  obtain rfl : file = names := by simpa [Path.absolute] using same
  exact member

/-- Of the warnings about different files, those about one are what it is warned of. -/
theorem warnings_about (distinct : files.Nodup) (member : names ∈ files) :
    (files.filterMap (warning? t root)).filter (·.file == some (.absolute names)) =
      (warning? t root names).toList := by
  induction files with
  | nil => cases member
  | cons first rest ih =>
    obtain ⟨new, others⟩ := List.nodup_cons.mp distinct
    rw [← List.singleton_append, List.filterMap_append, List.filter_append]
    rcases List.mem_cons.mp member with rfl | later
    · rw [no_warnings_about new, List.append_nil]
      cases warned : warning? t root names with
      | none => simp [warned]
      | some e => simp [warned, warning?_file warned]
    · have other : names ∉ [first] := by
        rintro only
        exact new (List.mem_singleton.mp only ▸ later)
      rw [no_warnings_about other, List.nil_append, ih others later]

/-- A file is parsed, or it is left out with one warning. -/
theorem load_warnings (distinct : t.Distinct) (connected : t.Connected)
    (read : ∀ names ∈ filesOf t root, ¬ Refused t names) (searched : names ∈ filesOf t root)
    (packages : List String) (guesses : Bool) :
    (∃ u, unit? t root names = some u ∧ parseModule u.source = .ok u.body ∧
      (load t root packages guesses).2.filter (·.file == some (.absolute names)) = []) ∨
    LeftOut t names ∧ ∃ reason,
      (load t root packages guesses).2.filter (·.file == some (.absolute names)) =
        [⟨.warning, reason, some (.absolute names)⟩] := by
  have about : (load t root packages guesses).2.filter (·.file == some (.absolute names)) =
      (warning? t root names).toList := by
    rw [load_eq, readAll_eq read]
    exact warnings_about (nodup_moduleFiles distinct _ root) searched
  obtain ⟨bytes, here⟩ := FileTree.isFile_iff.mp
    ((mem_moduleFiles_depth distinct connected).mp searched).1
  rw [about]
  cases came : readUnit root (t.isDirectory (root ++ ["src"])) names bytes with
  | unit u =>
    have outcome : outcome? t root names = some (.unit u) := outcome?_eq_some.mpr ⟨bytes, here, came⟩
    exact .inl ⟨u, by rw [unit?, outcome], parsed_of_readUnit came, by rw [warning?, outcome]; rfl⟩
  | leftOut reason =>
    have outcome : outcome? t root names = some (.leftOut reason) :=
      outcome?_eq_some.mpr ⟨bytes, here, came⟩
    exact .inr ⟨leftOut_iff.mpr ⟨reason, outcome⟩, reason, by rw [warning?, outcome]; rfl⟩
  | fault fault =>
    have outcome : outcome? t root names = some (.fault fault) :=
      outcome?_eq_some.mpr ⟨bytes, here, came⟩
    exact absurd (refused_iff.mpr ⟨fault, outcome⟩) (read names searched)

theorem openAt_directory {w : World} {shown : String} {root : Path}
    (resolved : w.resolve? (.ofText shown) = some root)
    (there : w.tree.at? root.names = some .directory) (packages : List String) (guesses : Bool) :
    openAt w shown packages guesses =
      ((load w.tree root.names packages guesses).1.mapError .unusable,
        (load w.tree root.names packages guesses).2) := by
  simp only [openAt, resolved, there]

/-- The files of a project that is opened.

Without null characters and faulty annotations there is a project, and its modules are those that
their files give their names first. Of the files some are parsed, and the others are left out with a
warning each. What is left out makes no other difference. -/
theorem openAt_files (w : World) {shown : String} {root : Path}
    (resolved : w.resolve? (.ofText shown) = some root)
    (there : w.tree.at? root.names = some .directory) (distinct : w.tree.Distinct)
    (connected : w.tree.Connected) (packages : List String) (guesses : Bool) :
    ((∃ p, (openAt w shown packages guesses).1 = .ok p) ↔
      (∀ names, Searched w.tree root.names names → ¬ Refused w.tree names) ∧
      ∀ name u, unitNamed? w.tree root.names name = some u →
        ∀ c ∈ u.index.classes.values, ∀ type ∈ c.annotations, ¬ Faulty type) ∧
    (∀ p, (openAt w shown packages guesses).1 = .ok p →
      ∀ name, (p.modules.get? name).map (·.unit) = unitNamed? w.tree root.names name) ∧
    ((∀ names, Searched w.tree root.names names → ¬ Refused w.tree names) →
      ∀ names, Searched w.tree root.names names →
        (∃ u, unit? w.tree root.names names = some u ∧ parseModule u.source = .ok u.body ∧
          (openAt w shown packages guesses).2.filter (·.file == some (.absolute names)) = []) ∨
        LeftOut w.tree names ∧ ∃ reason,
          (openAt w shown packages guesses).2.filter (·.file == some (.absolute names)) =
            [⟨.warning, reason, some (.absolute names)⟩]) ∧
    ∀ names, Searched w.tree root.names names → LeftOut w.tree names →
      openAt (w.withTree (w.tree.remove names)) shown packages guesses =
        ((openAt w shown packages guesses).1,
          (openAt w shown packages guesses).2.filter (·.file != some (.absolute names))) := by
  have files (names : List String) : Searched w.tree root.names names ↔ names ∈ filesOf w.tree root.names :=
    (mem_moduleFiles_depth distinct connected).symm
  simp only [files, openAt_directory resolved there, mapError_eq_ok]
  refine ⟨load_succeeds .., fun p success => load_units success,
    fun read names searched => load_warnings distinct connected read searched packages guesses,
    fun names searched left => ?_⟩
  have still : (w.tree.remove names).at? root.names = some .directory := by
    obtain ⟨bytes, file, -⟩ := left
    rw [connected.at?_remove file, there]
    rintro rfl
    rw [there] at file
    cases file
  have resolved' : (w.withTree (w.tree.remove names)).resolve? (.ofText shown) = some root := resolved
  rw [openAt_directory resolved' still]
  exact congrArg (fun read => (read.1.mapError OpenFault.unusable, read.2))
    (load_without distinct connected searched left packages guesses)

namespace TypedByText

/-- A class with an attribute that a text is the annotation of. -/
def annotated (points : List Nat) : Stmt :=
  .classDef ⟨1, 2⟩ "A" [] []
    [.annotated ⟨2, 2⟩ (.name "x" .store) (.constant (.text points false)) none true] []

/-- The text of the annotation holds a surrogate. -/
def odd : String := "class A:\n    x: \"\\ud800\"\n"

def oddWorld : World := ⟨SingleModule.tree odd, .absolute ["p"], .absolute []⟩

theorem surrogate_unusable :
    oddWorld.tree.at? ["p"] = some .directory ∧
      oddWorld.tree.at? ["p", "m.py"] = some (.file odd.toUTF8) ∧
      Text.Utf8.decode (odd.toUTF8.toList.map UInt8.toNat) = .ok odd ∧
      parseModule odd = .ok [annotated [0xd800]] ∧
      (openAt oddWorld "/p" [] false).1 = .error (.unusable (.surrogates 0xd800 0 0)) := by
  have resolved : oddWorld.resolve? (.ofText "/p") = some (.absolute ["p"]) := by cbv
  have parsed : parseModule odd = .ok [annotated [0xd800]] := by rfl
  have typed : (SingleModule.unit odd [annotated [0xd800]]).index.withAttributes =
      .error (.surrogates 0xd800 0 0) := by cbv
  refine ⟨rfl, rfl, Text.Utf8.decode_toUTF8 odd, parsed, ?_⟩
  have failed : (load oddWorld.tree ["p"] [] false).1 = .error (.surrogates 0xd800 0 0) := by
    refine (SingleModule.load_tree_eq parsed false).trans ?_
    rw [typed]
    rfl
  rw [openAt_directory resolved rfl]
  exact congrArg (·.mapError OpenFault.unusable) failed

def source : String := "class A:\n    x: \"B\"\n"

/-- A directory with a module and a file that is no UTF-8. -/
def tree : FileTree :=
  ⟨[(["p"], .directory), (["p", "m.py"], .file source.toUTF8), (["p", "n.py"], .file ⟨#[0xff]⟩)]⟩

def world : World := ⟨tree, .absolute ["p"], .absolute []⟩

theorem parsed_source : parseModule source = .ok [annotated [66]] := by rfl

theorem distinct_tree : tree.Distinct := by
  unfold FileTree.Distinct Dictionary.Distinct
  decide

theorem connected_tree : tree.Connected := FileTree.connected_of_all (by cbv)

theorem searched_iff (names : List String) :
    Searched tree ["p"] names ↔ names = ["p", "m.py"] ∨ names = ["p", "n.py"] := by
  have files : filesOf tree ["p"] = [["p", "m.py"], ["p", "n.py"]] := by cbv
  rw [← mem_moduleFiles_depth distinct_tree connected_tree, ← filesOf, files]
  simp

theorem leftOut_tree : LeftOut tree ["p", "n.py"] := by
  have bytes : ∃ fault, Text.Utf8.decode ((⟨#[0xff]⟩ : ByteArray).toList.map UInt8.toNat) =
      .error fault := ⟨⟨0, 255, 1, .start⟩, by cbv⟩
  exact ⟨⟨#[0xff]⟩, rfl, .inl bytes⟩

theorem not_refused_tree (names : List String) (searched : Searched tree ["p"] names) :
    ¬ Refused tree names := by
  rcases (searched_iff names).mp searched with rfl | rfl
  · rintro ⟨bytes, text, here, decoded, zero⟩
    obtain rfl : source.toUTF8 = bytes := by
      simpa [tree, FileTree.at?, List.lookup_cons] using here
    rw [Text.Utf8.decode_toUTF8, Except.ok.injEq] at decoded
    have failed := parseModule_zeroCharacter.mpr (decoded ▸ zero)
    rw [parsed_source] at failed
    cases failed
  · obtain ⟨reason, came⟩ : ∃ reason, outcome? tree ["p"] ["p", "n.py"] = some (.leftOut reason) :=
      leftOut_iff.mp leftOut_tree
    intro refused
    obtain ⟨fault, came'⟩ : ∃ fault, outcome? tree ["p"] ["p", "n.py"] = some (.fault fault) :=
      refused_iff.mp refused
    rw [came] at came'
    cases came'

theorem unit?_parsed :
    unit? tree ["p"] ["p", "m.py"] = some (SingleModule.unit source [annotated [66]]) := by
  have flat : tree.isDirectory (["p"] ++ ["src"]) = false := by cbv
  have read := SingleModule.readUnit_unit parsed_source
  have came : outcome? tree ["p"] ["p", "m.py"] =
      some (.unit (SingleModule.unit source [annotated [66]])) :=
    outcome?_eq_some.mpr ⟨source.toUTF8, rfl, flat ▸ read⟩
  rw [unit?, came]

theorem unit?_leftOut : unit? tree ["p"] ["p", "n.py"] = none := by
  obtain ⟨reason, came⟩ : ∃ reason, outcome? tree ["p"] ["p", "n.py"] = some (.leftOut reason) :=
    leftOut_iff.mp leftOut_tree
  rw [unit?, came]

theorem not_faulty_name : ¬ Faulty (.constant (.text [66] false)) := by
  have read : textExpression [66] = .ok (some (.name "B" .load)) := by rfl
  rintro (⟨c, member, odd⟩ | ⟨read', faulty⟩)
  · obtain rfl : c = 66 := List.mem_singleton.mp member
    rcases odd with odd | odd <;> cases odd
  · rw [read, Except.ok.injEq, Option.some.injEq] at read'
    rw [← read'] at faulty
    cases faulty

/-- The annotations of the only module are not faulty. -/
theorem not_faulty_named {name : String} {u : SourceUnit}
    (counts : unitNamed? tree ["p"] name = some u) :
    ∀ c ∈ u.index.classes.values, ∀ type ∈ c.annotations, ¬ Faulty type := by
  obtain ⟨names, member, held⟩ := List.mem_filterMap.mp (List.mem_of_find?_eq_some counts)
  rw [mem_moduleFiles_depth distinct_tree connected_tree] at member
  rcases (searched_iff names).mp member with rfl | rfl
  · rw [unit?_parsed] at held
    obtain rfl := Option.some.inj held
    intro c inModule type looked
    obtain rfl : c = _ := List.mem_singleton.mp inModule
    obtain rfl : type = _ := List.mem_singleton.mp looked
    exact not_faulty_name
  · rw [unit?_leftOut] at held
    cases held

theorem openAt_files_world :
    (∃ p, (openAt world "/p" [] false).1 = .ok p) ∧
      (∃ reason, (openAt world "/p" [] false).2.filter (·.file == some (.absolute ["p", "n.py"])) =
        [⟨.warning, reason, some (.absolute ["p", "n.py"])⟩]) ∧
      openAt (world.withTree (tree.remove ["p", "n.py"])) "/p" [] false =
        ((openAt world "/p" [] false).1, (openAt world "/p" [] false).2.filter
          (·.file != some (.absolute ["p", "n.py"]))) := by
  have resolved : world.resolve? (.ofText "/p") = some (.absolute ["p"]) := by cbv
  obtain ⟨opens, -, warned, without⟩ :=
    openAt_files world resolved rfl distinct_tree connected_tree [] false
  have searched := (searched_iff ["p", "n.py"]).mpr (.inr rfl)
  refine ⟨opens.mpr ⟨not_refused_tree, fun name u => not_faulty_named⟩, ?_,
    without _ searched leftOut_tree⟩
  rcases warned not_refused_tree _ searched with ⟨u, parsed, -⟩ | ⟨-, told⟩
  · cases unit?_leftOut.symm.trans parsed
  · exact told

end TypedByText

end Project

end ProbeWeave
