import Mathlib
import ProbeWeave.Proofs.Profile.Coherence

/-! # Changes that fail

A change of the current profile is made to what is remembered of it before it is stored. If it cannot be
stored, the files and the other profiles stay as they were, but the remembered profile keeps the change.
-/

namespace ProbeWeave.Session

open Files Outcome

variable {s s' : Session} {key : String} {value : Value} {record : Record} {name : String}
  {fault : StoreFault}

/-! ### What each step leaves behind -/

/-- What is saved in vain leaves everything as it was. -/
theorem save_error (failed : s.save record name = (.error fault, s')) : s' = s := by
  unfold save at failed
  extract_lets written at failed
  cases done : written with
  | ok world =>
    rw [done] at failed
    cases failed
  | error fault =>
    rw [done] at failed
    cases failed
    rfl

theorem load_error {key : Option String} (failed : s.load key = (.error fault, s')) : s' = s := by
  rw [load] at failed
  split at failed
  · cases failed
  · split at failed
    · cases failed
    · cases failed
      rfl

/-- A profile that is loaded is remembered, and nothing else changes. -/
theorem load_ok {key : Option String} (success : s.load key = (.ok record, s')) :
    s' = { s with loaded := s.loaded.put key record } := by
  rw [load] at success
  split at success
  · rename_i remembered
    cases success
    rw [Dictionary.put_of_get? remembered]
  · split at success
    · cases success
      rfl
    · cases success

theorem load_of_remembered {key : Option String} (remembered : s.loaded.get? key = some record) :
    s.load key = (.ok record, s) := by
  rw [load, remembered]

/-- A change fails before anything is done, if its setting is not known or there is no current profile
to be changed, or else with the change made to what is remembered. -/
theorem update_error (failed : s.update key value = (.error fault, s')) :
    (s' = s ∧ (key ∉ Profile.fieldNames ∨ ∃ fault, (s.load none).1 = .error fault)) ∨
      ∃ record, key ∈ Profile.fieldNames ∧ (s.load none).1 = .ok record ∧
        s' = { (s.load none).2 with
          loaded := (s.load none).2.loaded.put none (record.put key value) } := by
  unfold update at failed
  split at failed
  · rename_i unknown
    cases failed
    exact .inl ⟨rfl, .inl (by simpa using unknown)⟩
  · rename_i known
    split at failed
    · rename_i answer
      cases failed
      exact .inl ⟨load_error answer, .inr ⟨_, by rw [answer]⟩⟩
    · rename_i record after answer
      refine .inr ⟨record, by simpa using known, by rw [answer], ?_⟩
      rw [answer]
      exact save_error failed

/-! ### Loads that follow -/

/-- What comes after a change: a profile is loaded, or others replace the files. -/
inductive Later where
  | load (key : Option String)
  | replaced (world : World)

/-- What later loads give, each with the profile that it asks for. -/
def loadAll (s : Session) : List Later → List (Option String × Except StoreFault Record)
  | [] => []
  | .load key :: rest => (key, (s.load key).1) :: (s.load key).2.loadAll rest
  | .replaced world :: rest => loadAll { s with world } rest

/-- A load changes at most what is remembered under its own key. -/
theorem get?_load_of_ne {key other : Option String} (different : other ≠ key) (s : Session) :
    (s.load key).2.loaded.get? other = s.loaded.get? other := by
  rcases answer : s.load key with ⟨_ | record, after⟩
  · rw [load_error answer]
  · rw [load_ok answer]
    exact Dictionary.get?_put_of_ne different _ _

/-- What is remembered of the current profile is what all loads of it give, whatever becomes of the
files. -/
theorem loadAll_current (remembered : s.loaded.get? none = some record) (later : List Later)
    {answer : Except StoreFault Record} (given : (none, answer) ∈ s.loadAll later) :
    answer = .ok record := by
  induction later generalizing s with
  | nil => cases given
  | cons first rest ih =>
    cases first with
    | replaced world => exact ih (s := { s with world }) remembered given
    | load key =>
      rcases List.mem_cons.mp given with here | behind
      · cases here
        rw [load_of_remembered remembered]
      · refine ih ?_ behind
        cases key with
        | none => rwa [load_of_remembered remembered]
        | some name => rwa [get?_load_of_ne (Option.some_ne_none name).symm]

/-- Whether two sessions differ at most in what they remember of the current profile. -/
structure AgreesOnNames (s s' : Session) : Prop where
  format : s.format = s'.format
  world : s.world = s'.world
  remembered : ∀ name, s.loaded.get? (some name) = s'.loaded.get? (some name)

namespace AgreesOnNames

variable {s₁ : Session}

theorem refl (s : Session) : AgreesOnNames s s :=
  ⟨rfl, rfl, fun _ => rfl⟩

theorem symm (agrees : AgreesOnNames s s') : AgreesOnNames s' s :=
  ⟨agrees.format.symm, agrees.world.symm, fun name => (agrees.remembered name).symm⟩

theorem trans (agrees : AgreesOnNames s s₁) (agrees' : AgreesOnNames s₁ s') : AgreesOnNames s s' :=
  ⟨agrees.format.trans agrees'.format, agrees.world.trans agrees'.world, fun name =>
    (agrees.remembered name).trans (agrees'.remembered name)⟩

/-- What the current profile is remembered as makes no difference for the others. -/
theorem put_current (s : Session) (record : Record) :
    AgreesOnNames { s with loaded := s.loaded.put none record } s :=
  ⟨rfl, rfl, fun name => Dictionary.get?_put_of_ne (Option.some_ne_none name) _ _⟩

theorem load_current (s : Session) : AgreesOnNames (s.load none).2 s := by
  rcases answer : s.load none with ⟨_ | record, after⟩
  · rw [load_error answer]
    exact refl s
  · rw [load_ok answer]
    exact put_current s record

theorem fetch (agrees : AgreesOnNames s s') (name : String) : s.fetch name = s'.fetch name := by
  have place : s.storePath = s'.storePath := by rw [storePath, storePath, agrees.world]
  rw [Session.fetch, Session.fetch, root, root, place, agrees.world, agrees.format]

/-- A profile is loaded in one as in the other. -/
theorem load_name (agrees : AgreesOnNames s s') (name : String) :
    (s.load (some name)).1 = (s'.load (some name)).1 ∧
      AgreesOnNames (s.load (some name)).2 (s'.load (some name)).2 := by
  rw [load, load, agrees.remembered name, agrees.fetch]
  split
  · exact ⟨rfl, agrees⟩
  · split
    · rename_i record _
      refine ⟨rfl, agrees.format, agrees.world, fun other => ?_⟩
      by_cases same : some other = some name
      · rw [same, Dictionary.get?_put_self, Dictionary.get?_put_self]
      · rw [Dictionary.get?_put_of_ne same, Dictionary.get?_put_of_ne same, agrees.remembered]
    · exact ⟨rfl, agrees⟩

/-- All later loads of profiles by their names give in one what they give in the other. -/
theorem loadAll (agrees : AgreesOnNames s s') (later : List Later) :
    (s.loadAll later).filter (·.1.isSome) = (s'.loadAll later).filter (·.1.isSome) := by
  induction later generalizing s s' with
  | nil => rfl
  | cons first rest ih =>
    cases first with
    | replaced world => exact ih ⟨agrees.format, rfl, agrees.remembered⟩
    | load key =>
      simp only [Session.loadAll]
      cases key with
      | none => exact ih ((load_current s).trans (agrees.trans (load_current s').symm))
      | some name =>
        obtain ⟨same, after⟩ := agrees.load_name name
        rw [List.filter_cons_of_pos rfl, List.filter_cons_of_pos rfl, same, ih after]

end AgreesOnNames

/-! ### What a failed change changes -/

/-- A change that fails leaves the files as they were, and all profiles that are loaded by their names,
also later and whatever becomes of the files. The session is the same as before exactly if the setting
is not known, or the current profile cannot be loaded, or it is remembered with that very value.
Otherwise every later load of the current profile gives it with the change that failed. So the current
profile is what it was exactly if the setting is not known, or it cannot be loaded, or has the value. -/
theorem update_fails (failed : s.update key value = (.error fault, s')) :
    s'.forget = s.forget ∧
    (∀ later, (s'.loadAll later).filter (·.1.isSome) = (s.loadAll later).filter (·.1.isSome)) ∧
    (s' = s ↔ key ∉ Profile.fieldNames ∨ (∃ fault, (s.load none).1 = .error fault) ∨
      ∃ record, s.loaded.get? none = some record ∧ record.get? key = some value) ∧
    (∀ record, key ∈ Profile.fieldNames → (s.load none).1 = .ok record → ∀ later answer,
      (none, answer) ∈ s'.loadAll later → answer = .ok (record.put key value)) ∧
    ((s'.load none).1 = (s.load none).1 ↔
      key ∉ Profile.fieldNames ∨ (∃ fault, (s.load none).1 = .error fault) ∨
        ∃ record, (s.load none).1 = .ok record ∧ record.get? key = some value) := by
  rcases update_error failed with ⟨rfl, reason⟩ | ⟨record, known, answer, after⟩
  · refine ⟨rfl, fun _ => rfl, ?_, fun record known answer => ?_, ?_⟩
    · exact iff_of_true rfl (reason.imp_right .inl)
    · rcases reason with unknown | ⟨fault, absent⟩
      · exact absurd known unknown
      · rw [absent] at answer
        cases answer
    · exact iff_of_true rfl (reason.imp_right .inl)
  · have agrees : AgreesOnNames s' s := by
      rw [after]
      exact (AgreesOnNames.put_current _ _).trans (.load_current s)
    have remembered : s'.loaded.get? none = some (record.put key value) := by
      rw [after]
      exact Dictionary.get?_put_self _ _ _
    have loads : ¬ ∃ fault, (s.load none).1 = .error fault := by
      rintro ⟨fault, absent⟩
      rw [absent] at answer
      cases answer
    refine ⟨?_, agrees.loadAll, ⟨?_, ?_⟩, ?_, ?_⟩
    · rw [forget, forget, agrees.format, agrees.world]
    · rintro rfl
      exact .inr (.inr ⟨_, remembered, Dictionary.get?_put_self _ _ _⟩)
    · rintro (unknown | absent | ⟨old, before, same⟩)
      · exact absurd known unknown
      · exact absurd absent loads
      · rw [load_of_remembered before] at answer after
        cases answer
        rw [after, Dictionary.put_of_get? same, Dictionary.put_of_get? before]
    · intro other _ again later given current
      rw [answer] at again
      cases again
      exact loadAll_current remembered later current
    · rw [load_of_remembered remembered, answer, Except.ok.injEq, Dictionary.put_eq_self_iff]
      simp [known]

namespace Home

/-- The files after others wrote a text to the store that is malformed. -/
def brokenWorld : World :=
  ⟨⟨[(["home"], .directory), (["home", "user"], .directory),
      (["home", "user", ".timetrack-cli"], .directory),
      (["home", "user", ".timetrack-cli", "profiles.yaml"], .file "[".toUTF8)]⟩,
    .absolute ["home", "user"], .absolute ["home", "user"]⟩

/-- A session on these files that remembers the current profile. -/
def broken : Session :=
  ⟨.yaml, brokenWorld, ⟨[(none, Profile.blank.record)]⟩⟩

/-- The session after a change of the current profile. -/
def changed : Session :=
  { broken with loaded := ⟨[(none, { Profile.blank with methodName := "go" }.record)]⟩ }

/-- The current profile was remembered before others wrote to the store. -/
theorem load_world : (begin .yaml world).load none =
    (.ok Profile.blank.record, { broken with world }) := by
  have nothing : (begin .yaml world).root = .ok none := HasRoom.root_of_missing hasRoom_world missing_world
  rw [load, fetch, nothing]
  rfl

theorem root_broken : broken.root = .error .malformed := by
  have place : broken.storePath = .absolute ["home", "user", ".timetrack-cli", "profiles.yaml"] := by
    decide
  have there : broken.world.pathExists broken.storePath = true := by
    rw [place]
    decide
  have bytes : broken.world.tree.read broken.world.cwd broken.storePath = .ok "[".toUTF8 := by
    rw [place]
    rfl
  have text : broken.world.readText broken.storePath = .ok "[" := by
    rw [World.readText, bytes]
    simp only [bind, Except.bind, mapError_ok, Text.Utf8.decode_toUTF8]
    rfl
  have read : broken.format.read? "[" = none := by cbv
  rw [root, there, text]
  simp only [bind, Except.bind, mapError_ok, read]
  rfl

theorem update_broken : broken.update "method_name" (.text "go") = (.error .malformed, changed) := by
  have known : Profile.fieldNames.contains "method_name" = true := by decide
  have unread : changed.root = .error .malformed := root_broken
  have saved (record : Record) : changed.save record currentName = (.error .malformed, changed) := by
    rw [save, unread]
    rfl
  rw [update, known]
  exact saved _

/-- A change fails, and the current profile is loaded with the change. -/
theorem update_fails_remembered :
    (begin .yaml world).load none = (.ok Profile.blank.record, { broken with world }) ∧
      broken.update "method_name" (.text "go") = (.error .malformed, changed) ∧
      (broken.load none).1 = .ok Profile.blank.record ∧
      (changed.load none).1 = .ok { Profile.blank with methodName := "go" }.record ∧
      (changed.load none).1 ≠ (broken.load none).1 := by
  refine ⟨load_world, update_broken, rfl, rfl, fun same => ?_⟩
  have setting : some (Value.text "go") = some (Value.text "") :=
    congrArg (Dictionary.get? · "method_name") (Except.ok.inj same)
  simp at setting

theorem update_fails_broken :
    broken.update "method_name" (.text "go") = (.error .malformed, changed) ∧
      changed.forget = broken.forget ∧
      (∀ later, (changed.loadAll later).filter (·.1.isSome) = (broken.loadAll later).filter (·.1.isSome)) ∧
      ∀ later answer, (none, answer) ∈ changed.loadAll later →
        answer = .ok { Profile.blank with methodName := "go" }.record := by
  obtain ⟨files, names, -, current, -⟩ := update_fails update_broken
  exact ⟨update_broken, files, names, current Profile.blank.record (by decide) rfl⟩

end Home

end ProbeWeave.Session
