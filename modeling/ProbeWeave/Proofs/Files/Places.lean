import Mathlib.Data.List.Infix
import Mathlib.Data.List.Nodup
import ProbeWeave.Dictionary
import ProbeWeave.Files.Copying
import ProbeWeave.Outcome

/-! # What stands at a place of a file tree

Places are given by the names that lead to them. In a connected tree whatever exists stands in a
directory. The operations on trees are described here by what stands at each place afterwards, so that
nothing else has to look at the list of entries.
-/

namespace ProbeWeave.Files.FileTree

open Outcome

variable {t t' : FileTree} {names place more : List String} {content : Content} {bytes : ByteArray}

@[simp]
theorem at?_nil (t : FileTree) : t.at? [] = some .directory := rfl

theorem at?_of_ne_nil (nonempty : names ≠ []) : t.at? names = t.entries.lookup names := by
  rw [at?, if_neg (by simpa using nonempty)]

/-- A tree is changed like a dictionary. -/
theorem putEntry_eq_putIn (names : List String) (content : Content)
    (entries : List (List String × Content)) :
    putEntry names content entries = Dictionary.putIn names content entries := by
  induction entries with
  | nil => rfl
  | cons entry rest ih =>
    obtain ⟨key, old⟩ := entry
    by_cases same : key = names
    · subst same
      simp [putEntry, Dictionary.putIn]
    · have other : ¬names = key := fun eq => same eq.symm
      simp [putEntry, Dictionary.putIn, same, other, ih]

theorem at?_put_self (nonempty : names ≠ []) : (t.put names content).at? names = some content := by
  rw [at?_of_ne_nil nonempty, put, putEntry_eq_putIn, Dictionary.lookup_putIn_self]

theorem at?_put_of_ne (other : place ≠ names) : (t.put names content).at? place = t.at? place := by
  by_cases root : place = []
  · rw [root, at?_nil, at?_nil]
  · rw [at?_of_ne_nil root, at?_of_ne_nil root, put, putEntry_eq_putIn,
      Dictionary.lookup_putIn_of_ne other]

@[simp]
theorem isDirectory_iff : t.isDirectory names = true ↔ t.at? names = some .directory := by
  unfold isDirectory
  split
  · rename_i here
    simp [here]
  · rename_i other
    simp only [Bool.false_eq_true, false_iff]
    exact other

theorem isDirectory_eq_false_iff : t.isDirectory names = false ↔ t.at? names ≠ some .directory := by
  rw [← Bool.not_eq_true, isDirectory_iff]

theorem isFile_iff : t.isFile names = true ↔ ∃ bytes, t.at? names = some (.file bytes) := by
  unfold isFile
  split
  · rename_i here
    simp [here]
  · rename_i other
    simp only [Bool.false_eq_true, false_iff, not_exists]
    exact other

/-- What lies in a directory is listed. -/
theorem mem_listing {name : String} (here : t.at? (names ++ [name]) = some content) :
    ∃ listed, (name, listed) ∈ t.listing names := by
  rw [at?_of_ne_nil (by simp)] at here
  obtain ⟨entry, member, same⟩ := List.lookup_isSome_iff.mp (Option.isSome_of_eq_some here)
  obtain ⟨place, listed⟩ := entry
  obtain rfl : names ++ [name] = place := by simpa using same
  exact ⟨listed, List.mem_filterMap.mpr ⟨_, member, by simp⟩⟩

theorem length_le_foldl_max {entries : List (List String × Content)} {n : Nat}
    (member : (names, content) ∈ entries ∨ names.length ≤ n) :
    names.length ≤ entries.foldl (fun n entry => max n entry.1.length) n := by
  induction entries generalizing n with
  | nil => exact member.resolve_left List.not_mem_nil
  | cons entry rest ih =>
    refine ih ?_
    rcases member with member | bound
    · rcases List.mem_cons.mp member with rfl | member
      · exact .inr (le_max_right ..)
      · exact .inl member
    · exact .inr (le_trans bound (le_max_left ..))

/-- No place that exists lies deeper than the tree is. -/
theorem length_le_depth (here : t.at? names = some content) : names.length ≤ t.depth := by
  by_cases root : names = []
  · simp [root]
  · rw [at?_of_ne_nil root] at here
    obtain ⟨before, after, split, -⟩ := List.lookup_eq_some_iff.mp here
    have member : (names, content) ∈ t.entries := by simp [split]
    exact length_le_foldl_max (.inl member)

/-! ### Connected trees -/

/-- Whether whatever exists stands in a directory. -/
def Connected (t : FileTree) : Prop :=
  ∀ names content, t.at? names = some content → t.at? names.dropLast = some .directory

/-- A tree is connected if each of its entries stands in a directory. -/
theorem connected_of_all (all : t.entries.all (fun entry => t.isDirectory entry.1.dropLast) = true) :
    t.Connected := by
  intro names content here
  by_cases root : names = []
  · rw [root]
    rfl
  · rw [at?_of_ne_nil root] at here
    obtain ⟨before, after, split, -⟩ := List.lookup_eq_some_iff.mp here
    have member : (names, content) ∈ t.entries := by simp [split]
    exact isDirectory_iff.mp (List.all_eq_true.mp all _ member)

/-- Above what exists there are only directories. -/
theorem Connected.above (connected : t.Connected) (here : t.at? (names ++ more) = some content)
    (below : more ≠ []) : t.at? names = some .directory := by
  induction more using List.reverseRecOn generalizing content with
  | nil => exact absurd rfl below
  | append_singleton more last ih =>
    have parent := connected _ _ here
    rw [← List.append_assoc, List.dropLast_concat] at parent
    by_cases empty : more = []
    · rwa [empty, List.append_nil] at parent
    · exact ih parent empty

theorem Connected.exists_above (connected : t.Connected) (here : t.at? (names ++ more) = some content) :
    ∃ above, t.at? names = some above := by
  by_cases last : more = []
  · exact ⟨content, by rwa [last, List.append_nil] at here⟩
  · exact ⟨.directory, connected.above here last⟩

/-- Something put into a directory keeps a tree connected, if no directory is lost. -/
theorem Connected.put (connected : t.Connected) (parent : t.at? names.dropLast = some .directory)
    (free : t.at? names ≠ some .directory) (content : Content) : (t.put names content).Connected := by
  have stays {place : List String} (directory : t.at? place = some .directory) :
      (t.put names content).at? place = some .directory := by
    rw [at?_put_of_ne, directory]
    rintro rfl
    exact free directory
  intro place content' here
  by_cases same : place = names
  · rw [same]
    exact stays parent
  · rw [at?_put_of_ne same] at here
    exact stays (connected _ _ here)

/-! ### Making directories -/

/-- A tree in which directories were made down to a place, and nothing else was changed. -/
structure Makes (t t' : FileTree) (names : List String) : Prop where
  made : ∀ place, place <+: names → t'.at? place = some .directory
  kept : ∀ place, ¬place <+: names ∨ t.at? place ≠ none → t'.at? place = t.at? place

namespace Makes

/-- Making directories changes a place only if it was empty. -/
theorem eq_or (makes : Makes t t' names) (place : List String) :
    t'.at? place = t.at? place ∨
      t.at? place = none ∧ place <+: names ∧ t'.at? place = some .directory := by
  by_cases above : place <+: names
  · by_cases empty : t.at? place = none
    · exact .inr ⟨empty, above, makes.made place above⟩
    · exact .inl (makes.kept place (.inr empty))
  · exact .inl (makes.kept place (.inl above))

theorem stays (makes : Makes t t' names) (here : t.at? place = some content) :
    t'.at? place = some content := by
  rw [makes.kept place (.inr (by simp [here])), here]

theorem connected (makes : Makes t t' names) (connected : t.Connected) : t'.Connected := by
  intro place content here
  rcases makes.eq_or place with same | ⟨-, above, -⟩
  · exact makes.stays (connected place content (same ▸ here))
  · exact makes.made _ ((List.dropLast_prefix place).trans above)

/-- What a step does that makes the directory below the first `n` names. -/
def Step (names : List String) (step : FileTree → Nat → Except Fault FileTree) : Prop :=
  ∀ (t : FileTree) (n : Nat), match t.at? (names.take (n + 1)) with
    | some .directory => step t n = .ok t
    | some (.file _) => ∃ fault, step t n = .error fault
    | none => step t n = .ok (t.put (names.take (n + 1)) .directory)

/-- Directories are made one after the other. -/
theorem of_foldlM {step : FileTree → Nat → Except Fault FileTree} (one : Step names step) {n : Nat}
    (within : n ≤ names.length) (done : (List.range n).foldlM step t = .ok t') :
    Makes t t' (names.take n) := by
  induction n generalizing t' with
  | zero =>
    cases done
    refine ⟨fun place above => ?_, fun _ _ => rfl⟩
    rw [List.take_zero, List.prefix_nil] at above
    rw [above, at?_nil]
  | succ n ih =>
    rw [List.range_succ, List.foldlM_append] at done
    obtain ⟨middle, before, last⟩ := bind_eq_ok.mp done
    obtain ⟨made, kept⟩ := ih (by omega) before
    have last : step middle n = .ok t' := by simpa using last
    have next := one middle n
    rw [last] at next
    have prefixes {place : List String} (above : place <+: names.take (n + 1)) :
        place <+: names.take n ∨ place = names.take (n + 1) := by
      rw [List.take_succ_eq_append_getElem (by omega)] at above ⊢
      exact (List.prefix_concat_iff.mp above).symm
    have before (place : List String) (free : ¬place <+: names.take (n + 1) ∨ t.at? place ≠ none) :
        middle.at? place = t.at? place :=
      kept place (free.imp_left fun apart above =>
        apart (above.trans (List.take_prefix_take_left (by omega))))
    split at next
    · rename_i here
      cases next
      refine ⟨fun place above => ?_, before⟩
      rcases prefixes above with above | rfl
      · exact made place above
      · exact here
    · obtain ⟨fault, failed⟩ := next
      cases failed
    · rename_i empty
      cases next
      have deeper : names.take (n + 1) ≠ [] := by
        intro root
        rw [root] at empty
        cases empty
      refine ⟨fun place above => ?_, fun place free => ?_⟩
      · by_cases same : place = names.take (n + 1)
        · rw [same, at?_put_self deeper]
        · rw [at?_put_of_ne same]
          exact made place ((prefixes above).resolve_right same)
      · have other : place ≠ names.take (n + 1) := by
          rintro rfl
          rcases free with apart | there
          · exact apart List.prefix_rfl
          · exact there (before _ (.inr there) ▸ empty)
        rw [at?_put_of_ne other, before place free]

/-- Directories can be made where no file is in the way. -/
theorem exists_foldlM {step : FileTree → Nat → Except Fault FileTree} (one : Step names step)
    (free : ∀ place, place <+: names → ∀ bytes, t.at? place ≠ some (.file bytes)) {n : Nat}
    (within : n ≤ names.length) : ∃ t', (List.range n).foldlM step t = .ok t' := by
  induction n with
  | zero => exact ⟨t, rfl⟩
  | succ n ih =>
    obtain ⟨middle, before⟩ := ih (by omega)
    have makes := of_foldlM one (by omega) before
    have clear (bytes : ByteArray) : middle.at? (names.take (n + 1)) ≠ some (.file bytes) := by
      intro here
      rcases makes.eq_or (names.take (n + 1)) with same | ⟨-, -, directory⟩
      · exact free _ (List.take_prefix ..) bytes (same ▸ here)
      · cases directory.symm.trans here
    obtain ⟨t', next⟩ : ∃ t', step middle n = .ok t' := by
      have next := one middle n
      split at next
      · exact ⟨_, next⟩
      · rename_i bytes here
        exact absurd here (clear bytes)
      · exact ⟨_, next⟩
    refine ⟨t', ?_⟩
    rw [List.range_succ, List.foldlM_append, before]
    simp [bind, Except.bind, next, pure, Except.pure]

end Makes

theorem makes_of_makeTarget (done : t.makeTarget names = .ok t') : Makes t t' names := by
  suffices one : Makes.Step names _ by
    have makes := Makes.of_foldlM one le_rfl done
    rwa [List.take_length] at makes
  · intro t n
    dsimp only
    generalize t.at? (names.take (n + 1)) = here
    obtain _ | _ | bytes := here
    · rfl
    · rfl
    · by_cases last : (n + 1 == names.length) = true
      · exact ⟨_, if_pos last⟩
      · exact ⟨_, if_neg last⟩

theorem makeDirectoriesAt_eq (t : FileTree) (names : List String) : ∃ step, Makes.Step names step ∧
    t.makeDirectoriesAt names = (List.range names.length).foldlM step t := by
  refine ⟨_, ?_, rfl⟩
  intro t n
  dsimp only
  generalize t.at? (names.take (n + 1)) = here
  obtain _ | _ | bytes := here
  · rfl
  · rfl
  · exact ⟨_, rfl⟩

theorem makes_of_makeDirectoriesAt (done : t.makeDirectoriesAt names = .ok t') : Makes t t' names := by
  obtain ⟨step, one, same⟩ := makeDirectoriesAt_eq t names
  have makes := Makes.of_foldlM one le_rfl (same ▸ done)
  rwa [List.take_length] at makes

theorem exists_makeDirectoriesAt
    (free : ∀ place, place <+: names → ∀ bytes, t.at? place ≠ some (.file bytes)) :
    ∃ t', t.makeDirectoriesAt names = .ok t' := by
  obtain ⟨step, one, same⟩ := makeDirectoriesAt_eq t names
  rw [same]
  exact Makes.exists_foldlM one free le_rfl

/-! ### Following names and writing -/

/-- Names without `..` lead where they say, if they lead anywhere. -/
theorem follow_eq_ok {start : List String} (straight : ".." ∉ names)
    (followed : t.follow start names = .ok place) : place = start ++ names := by
  induction names generalizing start with
  | nil =>
    cases followed
    rw [List.append_nil]
  | cons name rest ih =>
    obtain ⟨first, later⟩ := not_or.mp (List.mem_cons.not.mp straight)
    rw [follow, if_neg (by simpa using Ne.symm first)] at followed
    dsimp only at followed
    split at followed
    · rename_i last
      cases followed
      rw [List.isEmpty_iff.mp last]
    · split at followed
      · rw [ih later followed, List.append_assoc, List.singleton_append]
      · cases followed
      · cases followed

/-- In a connected tree, names without `..` lead below any directory. -/
theorem Connected.follow {start : List String} (connected : t.Connected) (straight : ".." ∉ names)
    (parent : t.at? (start ++ names.dropLast) = some .directory) :
    t.follow start names = .ok (start ++ names) := by
  induction names generalizing start with
  | nil => rw [FileTree.follow, List.append_nil]
  | cons name rest ih =>
    obtain ⟨first, later⟩ := not_or.mp (List.mem_cons.not.mp straight)
    rw [FileTree.follow, if_neg (by simpa using Ne.symm first)]
    dsimp only
    cases rest with
    | nil => rfl
    | cons next rest =>
      rw [List.dropLast_cons_of_ne_nil (by simp), ← List.singleton_append, ← List.append_assoc] at parent
      have here : t.at? (start ++ [name]) = some .directory := by
        by_cases last : (next :: rest).dropLast = []
        · rwa [last, List.append_nil] at parent
        · exact connected.above parent last
      rw [if_neg (by simp), here]
      dsimp only
      rw [ih later parent, List.append_assoc, List.singleton_append]

section Reading

variable {cwd path : Path}

theorem Connected.locate (connected : t.Connected) (rooted : path.isAbsolute = true)
    (straight : ".." ∉ path.names) (parent : t.at? path.names.dropLast = some .directory) :
    t.locate cwd path = .ok path.names := by
  rw [FileTree.locate, if_pos rooted, connected.follow straight (by rwa [List.nil_append])]
  rfl

/-- In a connected tree, a path from the root without `..` leads to what stands at its names. -/
theorem Connected.find? (connected : t.Connected) (rooted : path.isAbsolute = true)
    (straight : ".." ∉ path.names) : t.find? cwd path = t.at? path.names := by
  rw [FileTree.find?]
  split
  · rename_i place located
    rw [FileTree.locate, mapError_eq_ok, if_pos rooted] at located
    rw [follow_eq_ok straight located, List.nil_append]
  · rename_i fault failed
    symm
    rw [← Option.not_isSome_iff_eq_none, Option.isSome_iff_exists]
    rintro ⟨content, here⟩
    cases failed.symm.trans (connected.locate rooted straight (connected _ _ here))

/-- A file at the names of a path from the root is read. -/
theorem Connected.read (connected : t.Connected) (rooted : path.isAbsolute = true)
    (straight : ".." ∉ path.names) (here : t.at? path.names = some (.file bytes)) :
    t.read cwd path = .ok bytes := by
  rw [FileTree.read, connected.locate rooted straight (connected _ _ here)]
  simp only [bind, Except.bind, here]
  rfl

end Reading

section Writing

variable {cwd path : Path}

/-- What is written to a path from the root stands at its names afterwards, in a directory. -/
theorem write_eq_ok (rooted : path.isAbsolute = true) (straight : ".." ∉ path.names)
    (written : t.write cwd path bytes = .ok t') :
    t.at? path.names.dropLast = some .directory ∧ t.at? path.names ≠ some .directory ∧
      t' = t.put path.names (.file bytes) := by
  rw [write, bind_eq_ok] at written
  obtain ⟨place, located, written⟩ := written
  rw [locate, mapError_eq_ok, if_pos rooted] at located
  obtain rfl := (follow_eq_ok straight located).trans (List.nil_append _)
  split at written
  · cases written
  · rename_i free
    split at written
    · rename_i parent
      cases written
      exact ⟨parent, fun here => free (isDirectory_iff.mpr here), rfl⟩
    · cases written
    · cases written

/-- Whatever stands in a directory and is no directory itself can be written. -/
theorem Connected.write (connected : t.Connected) (rooted : path.isAbsolute = true)
    (straight : ".." ∉ path.names) (parent : t.at? path.names.dropLast = some .directory)
    (free : t.at? path.names ≠ some .directory) (bytes : ByteArray) :
    t.write cwd path bytes = .ok (t.put path.names (.file bytes)) := by
  rw [FileTree.write, connected.locate rooted straight parent]
  simp only [bind, Except.bind, isDirectory_eq_false_iff.mpr free, Bool.false_eq_true, if_false, parent]
  rfl

end Writing

/-! ### Listings, and what removing a file changes -/

section Listing

variable {directory : List String}

/-- Whether every place stands in one entry. -/
def Distinct (t : FileTree) : Prop :=
  (⟨t.entries⟩ : Dictionary (List String) Content).Distinct

theorem Distinct.at?_eq_some (distinct : t.Distinct) (nonempty : names ≠ []) :
    t.at? names = some content ↔ (names, content) ∈ t.entries := by
  rw [at?_of_ne_nil nonempty]
  exact Dictionary.Distinct.get?_eq_some distinct

theorem mem_listing_iff {name : String} :
    (name, content) ∈ t.listing directory ↔ (directory ++ [name], content) ∈ t.entries := by
  simp only [listing, List.mem_filterMap]
  constructor
  · rintro ⟨⟨names, here⟩, member, listed⟩
    split at listed
    · rename_i last ends
      split at listed
      · rename_i above
        obtain ⟨rfl, rfl⟩ := Prod.ext_iff.mp (Option.some.inj listed)
        rwa [← eq_of_beq above, List.dropLast_append_getLast? _ ends]
      · cases listed
    · cases listed
  · intro member
    exact ⟨_, member, by simp⟩

/-- A directory lists what stands in it. -/
theorem Distinct.mem_listing (distinct : t.Distinct) {name : String} :
    (name, content) ∈ t.listing directory ↔ t.at? (directory ++ [name]) = some content := by
  rw [mem_listing_iff, distinct.at?_eq_some (by simp)]

/-- A directory lists every name once. -/
theorem Distinct.nodup_listing (distinct : t.Distinct) (directory : List String) :
    ((t.listing directory).map Prod.fst).Nodup := by
  have listed : (t.listing directory).map Prod.fst = (t.entries.map Prod.fst).filterMap
      fun names => names.getLast?.filter fun _ => names.dropLast == directory := by
    simp only [listing, List.map_filterMap, List.filterMap_map]
    refine List.filterMap_congr fun entry _ => ?_
    obtain ⟨names, content⟩ := entry
    cases ends : names.getLast? with
    | none => simp [ends]
    | some last =>
      by_cases above : names.dropLast = directory <;> simp [ends, above, Option.filter_some]
  rw [listed]
  refine List.Nodup.filterMap (fun names other last here there => ?_) distinct
  simp only [Option.mem_def, Option.filter_eq_some_iff, beq_iff_eq] at here there
  rw [← List.dropLast_append_getLast? _ here.1, ← List.dropLast_append_getLast? _ there.1, here.2,
    there.2]

/-- What is removed is not listed. -/
theorem listing_remove (outside : ¬ names <+: directory) :
    (t.remove names).listing directory =
      (t.listing directory).filter fun entry => directory ++ [entry.1] != names := by
  simp only [listing, remove, List.filterMap_filter, List.filter_filterMap]
  refine List.filterMap_congr fun entry _ => ?_
  obtain ⟨place, content⟩ := entry
  cases ends : place.getLast? with
  | none => simp
  | some last =>
    by_cases above : place.dropLast = directory
    · obtain rfl : directory ++ [last] = place := by
        rw [← above, List.dropLast_append_getLast? _ ends]
      have kept : (names.isPrefixOf (directory ++ [last])) = (directory ++ [last] == names) := by
        rw [Bool.eq_iff_iff, List.isPrefixOf_iff_prefix, List.prefix_concat_iff, beq_iff_eq]
        simp [outside, eq_comm]
      simp only [kept, above, beq_self_eq_true, if_true, Option.filter_some, bne]
    · simp [above]

theorem lookup_filter (keep : List String → Bool) (place : List String)
    (entries : List (List String × Content)) :
    (entries.filter fun entry => keep entry.1).lookup place =
      if keep place then entries.lookup place else none := by
  induction entries with
  | nil => simp
  | cons entry rest ih =>
    obtain ⟨names, content⟩ := entry
    by_cases same : place = names
    · subst same
      cases kept : keep place <;> simp [kept, ih]
    · have apart : (place == names) = false := beq_eq_false_iff_ne.mpr same
      cases kept : keep names <;> simp [kept, apart, List.lookup_cons, ih]

theorem at?_remove (nonempty : place ≠ []) :
    (t.remove names).at? place = if names <+: place then none else t.at? place := by
  rw [at?_of_ne_nil nonempty, at?_of_ne_nil nonempty, remove]
  refine (lookup_filter (fun place => !names.isPrefixOf place) place t.entries).trans ?_
  simp only [Bool.not_eq_true', ← Bool.not_eq_true, List.isPrefixOf_iff_prefix, ite_not]

/-- Removing a file makes no difference elsewhere. -/
theorem Connected.at?_remove (connected : t.Connected) {bytes : ByteArray}
    (file : t.at? names = some (.file bytes)) (other : place ≠ names) :
    (t.remove names).at? place = t.at? place := by
  by_cases root : place = []
  · rw [root, at?_nil, at?_nil]
  rw [FileTree.at?_remove root]
  split
  · rename_i below
    obtain ⟨more, rfl⟩ := below
    cases here : t.at? (names ++ more) with
    | none => rfl
    | some content =>
      have above := connected.above here (by rintro rfl; simp at other)
      rw [file] at above
      cases above
  · rfl

end Listing

end ProbeWeave.Files.FileTree

namespace ProbeWeave.Files

/-! ### Sorted names -/

theorem pairwise_sortNames (names : List String) : (sortNames names).Pairwise fun a b => a ≤ b := by
  have sorted : (names.mergeSort fun a b => decide (a ≤ b)).Pairwise fun a b =>
      decide (a ≤ b) = true :=
    List.pairwise_mergeSort (fun a b c => by simpa using String.le_trans)
      (fun a b => by simpa using String.le_total a b) names
  simpa [sortNames] using sorted

theorem sortNames_filter (keep : String → Bool) (names : List String) :
    sortNames (names.filter keep) = (sortNames names).filter keep := by
  refine List.Perm.eq_of_pairwise (fun a b _ _ => String.le_antisymm) (pairwise_sortNames _)
    ((pairwise_sortNames names).filter _) ?_
  exact (List.mergeSort_perm _ _).trans ((List.mergeSort_perm _ _).symm.filter _)

theorem mem_sortNames {name : String} {names : List String} :
    name ∈ sortNames names ↔ name ∈ names :=
  List.mem_mergeSort

theorem nodup_sortNames {names : List String} (distinct : names.Nodup) : (sortNames names).Nodup :=
  (List.mergeSort_perm _ _).nodup_iff.mpr distinct

end ProbeWeave.Files
