import ProbeWeave.Profile.Session
import ProbeWeave.Proofs.Files.Places
import ProbeWeave.Proofs.Profile.Stored
import ProbeWeave.Proofs.Text.Utf8

/-! # The file of a store

A store is one file below the home directory. Where nothing is in its way, a store that is written can be
read again at once, and what is read is the text that was written.
-/

namespace ProbeWeave.Session

open Files FileTree Outcome Yaml

/-- The names that lead to the store of a home directory. -/
def storeNames (home : Path) : List String :=
  home.names ++ [".timetrack-cli", "profiles.yaml"]

/-- Whether there is room for a store: the home directory is given from the root, no file stands where a
directory above the store should be, and no directory stands in its own place. -/
structure HasRoom (w : World) : Prop where
  rooted : w.home.isAbsolute = true
  straight : ".." ∉ w.home.names
  connected : w.tree.Connected
  above : ∀ place, place <+: (storeNames w.home).dropLast → ∀ bytes, w.tree.at? place ≠ some (.file bytes)
  free : w.tree.at? (storeNames w.home) ≠ some .directory

variable {s : Session} {w : World} {text : String} {bytes : ByteArray}

theorem names_storePath (s : Session) : s.storePath.names = storeNames s.world.home := by
  have below : Path.ofText ".timetrack-cli/profiles.yaml" = ⟨0, [".timetrack-cli", "profiles.yaml"]⟩ := by
    decide
  rw [storePath, below]
  rfl

namespace HasRoom

theorem rooted_storePath (room : HasRoom s.world) : s.storePath.isAbsolute = true := by
  have below : (Path.ofText ".timetrack-cli/profiles.yaml").isAbsolute = false := by decide
  rw [storePath, Path.join, below]
  exact room.rooted

theorem straight_storePath (room : HasRoom s.world) : ".." ∉ s.storePath.names := by
  rw [names_storePath, storeNames, List.mem_append, not_or]
  exact ⟨room.straight, by decide⟩

/-- Without a file there is nothing in the store. -/
theorem root_of_missing (room : HasRoom s.world) (missing : s.world.tree.at? (storeNames s.world.home) = none) :
    s.root = .ok none := by
  have found : s.world.tree.find? s.world.cwd s.storePath = none := by
    rw [room.connected.find? room.rooted_storePath room.straight_storePath, names_storePath, missing]
  rw [root, World.pathExists, pathExists, found]
  rfl

/-- In the file of a store its text is found. -/
theorem root_of_file (room : HasRoom s.world) {found : Option Node}
    (here : s.world.tree.at? (storeNames s.world.home) = some (.file text.toUTF8))
    (read : s.format.read? (String.ofList (Text.unifyBreaks text.toList)) = some found) :
    s.root = .ok found := by
  rw [← names_storePath] at here
  have exists_ : s.world.pathExists s.storePath = true := by
    rw [World.pathExists, pathExists, room.connected.find? room.rooted_storePath room.straight_storePath, here]
    rfl
  have bytes : s.world.tree.read s.world.cwd s.storePath = .ok text.toUTF8 :=
    room.connected.read room.rooted_storePath room.straight_storePath here
  have content : s.world.readText s.storePath = .ok (String.ofList (Text.unifyBreaks text.toList)) := by
    rw [World.readText, bytes]
    simp only [bind, Except.bind, mapError_ok, Text.Utf8.decode_toUTF8]
    rfl
  rw [root, exists_, content]
  simp only [bind, Except.bind, mapError_ok, read]
  rfl

/-- A store that was put into its directory leaves room for the next one. -/
theorem put {tree : FileTree} (room : HasRoom w) (connected : tree.Connected)
    (made : ∀ place, place <+: (storeNames w.home).dropLast → tree.at? place = some .directory)
    (free : tree.at? (storeNames w.home) ≠ some .directory) (bytes : ByteArray) :
    HasRoom (w.withTree (tree.put (storeNames w.home) (.file bytes))) := by
  refine ⟨room.rooted, room.straight, connected.put (made _ List.prefix_rfl) free _, ?_, ?_⟩
  · intro place inside bytes' file
    by_cases same : place = storeNames w.home
    · have shorter := inside.length_le
      rw [same] at shorter
      simp [World.withTree, storeNames] at shorter
    · cases ((at?_put_of_ne same).trans (made place inside)).symm.trans file
  · intro directory
    have nonempty : storeNames w.home ≠ [] := by simp [storeNames]
    cases (at?_put_self nonempty).symm.trans directory

/-- A store can be written, and there is room for it afterwards. -/
theorem writeStore (room : HasRoom s.world) (text : String) : ∃ tree,
    s.writeStore text = .ok (s.world.withTree tree) ∧ HasRoom (s.world.withTree tree) ∧
      tree.at? (storeNames s.world.home) = some (.file text.toUTF8) := by
  obtain ⟨made, done⟩ := exists_makeDirectoriesAt room.above
  have makes := makes_of_makeDirectoriesAt done
  have connected := makes.connected room.connected
  have free : made.at? (storeNames s.world.home) ≠ some .directory := by
    rw [makes.kept]
    · exact room.free
    · refine .inl fun inside => ?_
      have shorter := inside.length_le
      simp [storeNames] at shorter
  have written : made.write s.world.cwd s.storePath text.toUTF8 =
      .ok (made.put (storeNames s.world.home) (.file text.toUTF8)) := by
    rw [← names_storePath] at makes free ⊢
    exact connected.write room.rooted_storePath room.straight_storePath
      (makes.made _ List.prefix_rfl) free _
  refine ⟨made.put (storeNames s.world.home) (.file text.toUTF8), ?_, ?_, ?_⟩
  · have directory : s.storePath.parent.names = (storeNames s.world.home).dropLast := by
      rw [← names_storePath]
      rfl
    rw [Session.writeStore, directory, done]
    simp only [bind, Except.bind, mapError_ok, written]
    rfl
  · exact room.put connected makes.made free _
  · exact at?_put_self (by simp [storeNames])

end HasRoom

end ProbeWeave.Session
