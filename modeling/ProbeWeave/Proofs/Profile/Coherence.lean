import Mathlib.Data.List.Infix
import Mathlib.Logic.Function.Basic
import ProbeWeave.Proofs.Profile.Storage

/-! # Loading what was stored

Whatever is asked of a session and in whatever order, a load gives the profile that was stored last under
its name. What is remembered of earlier loads is never out of date: changing a setting changes the current
profile that is remembered before it is stored, and storing forgets all that was remembered.
-/

namespace ProbeWeave.Session

open Files FileTree Yaml

/-- What is asked of a session. -/
inductive Request where
  /-- The profile of a name, or the current one. -/
  | load (key : Option String)
  | save (profile : Profile) (name : String)
  /-- A change of the current profile. -/
  | update (change : Change)
  /-- A new session on the same files. -/
  | reopen

/-- Does what is asked; a load gives a record. -/
def perform (s : Session) : Request → Except StoreFault (Option Record) × Session
  | .load key =>
    let (answer, s) := s.load key
    (answer.map some, s)
  | .save profile name =>
    let (done, s) := s.save profile.record name
    (done.map fun _ => none, s)
  | .update change =>
    let (done, s) := s.update change.key change.value
    (done.map fun _ => none, s)
  | .reopen => (.ok none, begin s.format s.world)

/-- Does one thing after the other. -/
def performAll (s : Session) : List Request → List (Except StoreFault (Option Record)) × Session
  | [] => ([], s)
  | request :: rest =>
    let (answer, s) := s.perform request
    let (answers, s) := s.performAll rest
    (answer :: answers, s)

namespace Request

/-- Whether the paths that are given are as reading gives them. -/
def Normal : Request → Prop
  | save profile _ => profile.Normal
  | update change => change.Normal
  | _ => True

/-- The name that something is stored under. -/
def stored? : Request → Option String
  | save _ name => some name
  | update _ => some currentName
  | _ => none

/-- The profiles that were stored last, given those that were before. -/
def effect (profiles : String → Profile) : Request → String → Profile
  | save profile name => Function.update profiles name profile
  | update change => Function.update profiles currentName (change.apply (profiles currentName))
  | _ => profiles

/-- What is given if loads give the profiles that were stored last. -/
def answer (profiles : String → Profile) : Request → Option Record
  | load key => some (profiles (key.getD currentName)).record
  | _ => none

/-- What is given for one request after the other. -/
def answers (profiles : String → Profile) : List Request → List (Option Record)
  | [] => []
  | request :: rest => request.answer profiles :: answers (request.effect profiles) rest

theorem effect_of_ne {request : Request} {name : String} (other : request.stored? ≠ some name)
    (profiles : String → Profile) : request.effect profiles name = profiles name := by
  cases request with
  | load key => rfl
  | save profile stored =>
    apply Function.update_of_ne
    rintro rfl
    exact other rfl
  | update change =>
    apply Function.update_of_ne
    rintro rfl
    exact other rfl
  | reopen => rfl

end Request

/-- Whether the store of a session holds the profiles that were stored last. -/
structure Keeps (s : Session) (profiles : String → Profile) : Prop where
  givesBack : s.format.GivesBack
  room : HasRoom s.world
  normal : ∀ name, (profiles name).Normal
  holds : ∃ root d, s.root = .ok root ∧ Store.Holds root d ∧
    ∀ name, (d.get? name).getD Profile.blank.record = (profiles name).record

/-- Whether what is remembered is what was stored last, too. -/
structure Coherent (s : Session) (profiles : String → Profile) : Prop extends Keeps s profiles where
  remembered : ∀ key record, s.loaded.get? key = some record →
    record = (profiles (key.getD currentName)).record

variable {s : Session} {profiles : String → Profile} {profile : Profile} {w : World}

/-- What is stored can be fetched. -/
theorem Keeps.fetch (keeps : Keeps s profiles) (name : String) :
    s.fetch name = .ok (profiles name).record := by
  obtain ⟨root, d, found, holds, tells⟩ := keeps.holds
  obtain ⟨profile, read, same⟩ := holds.profile (keeps.normal name) (tells name)
  rw [Session.fetch, found]
  simp only [bind, Except.bind, read, same]
  rfl

/-- Where there is room, a profile is put into the store and can be read from there, and nothing is
remembered. -/
theorem save_holds (givesBack : s.format.GivesBack) (room : HasRoom s.world) {root : Option Node}
    {d : Dictionary String Record} (found : s.root = .ok root) (holds : Store.Holds root d)
    (profile : Profile) (name : String) :
    ∃ tree root', s.save profile.record name = (.ok (), ⟨s.format, s.world.withTree tree, .empty⟩) ∧
      HasRoom (s.world.withTree tree) ∧
      (⟨s.format, s.world.withTree tree, .empty⟩ : Session).root = .ok root' ∧
      Store.Holds root' (d.put name profile.record) := by
  obtain ⟨node, put, maps⟩ := holds.put profile name
  obtain ⟨tree, written, room', here⟩ := room.writeStore (s.format.write node)
  obtain ⟨node', read, maps'⟩ := givesBack node _ maps
  refine ⟨tree, some node', ?_, room', HasRoom.root_of_file room' here read, .map maps'⟩
  rw [Session.save, found]
  simp only [bind, Except.bind, put, written]
  rfl

/-- Storing a profile succeeds, and nothing is remembered that would be out of date. -/
theorem Keeps.save (keeps : Keeps s profiles) (normal : profile.Normal) (name : String) :
    ∃ s', s.save profile.record name = (.ok (), s') ∧
      Coherent s' (Function.update profiles name profile) := by
  obtain ⟨root, d, found, holds, tells⟩ := keeps.holds
  obtain ⟨tree, root', saved, room, found', holds'⟩ :=
    save_holds keeps.givesBack keeps.room found holds profile name
  refine ⟨_, saved, ⟨keeps.givesBack, room, ?_, root', _, found', holds', fun other => ?_⟩, ?_⟩
  · intro other
    by_cases same : other = name
    · rwa [same, Function.update_self]
    · rw [Function.update_of_ne same]
      exact keeps.normal other
  · by_cases same : other = name
    · rw [same, Function.update_self, Dictionary.get?_put_self, Option.getD_some]
    · rw [Function.update_of_ne same, Dictionary.get?_put_of_ne same]
      exact tells other
  · intro key record remembered
    cases remembered

namespace Coherent

theorem begin (keeps : Keeps s profiles) : Coherent (begin s.format s.world) profiles := by
  refine ⟨⟨keeps.givesBack, keeps.room, keeps.normal, keeps.holds⟩, ?_⟩
  intro key record remembered
  cases remembered

/-- A load gives what was stored last, and remembering it is safe. -/
theorem load (coherent : Coherent s profiles) (key : Option String) :
    ∃ s', s.load key = (.ok (profiles (key.getD currentName)).record, s') ∧ Coherent s' profiles := by
  rw [Session.load]
  split
  · rename_i record remembered
    exact ⟨s, by rw [coherent.remembered key record remembered], coherent⟩
  · rw [coherent.fetch]
    refine ⟨_, rfl, ⟨coherent.givesBack, coherent.room, coherent.normal, coherent.holds⟩, ?_⟩
    intro other record remembered
    by_cases same : other = key
    · rw [same, Dictionary.get?_put_self] at remembered
      cases remembered
      rw [same]
    · rw [Dictionary.get?_put_of_ne same] at remembered
      exact coherent.remembered other record remembered

/-- A change of the current profile stores it with that one setting changed. -/
theorem update (coherent : Coherent s profiles) {change : Change} (normal : change.Normal) :
    ∃ s', s.update change.key change.value = (.ok (), s') ∧
      Coherent s' (Function.update profiles currentName (change.apply (profiles currentName))) := by
  obtain ⟨loaded, answer, after⟩ := coherent.load none
  let changed := (profiles currentName).record.put change.key change.value
  have keeps : Keeps { loaded with loaded := loaded.loaded.put none changed } profiles :=
    ⟨after.givesBack, after.room, after.normal, after.holds⟩
  obtain ⟨s', saved, coherent'⟩ := keeps.save (normal.apply (coherent.normal currentName)) currentName
  refine ⟨s', ?_, coherent'⟩
  rw [Session.update, change.contains_key, answer]
  rw [change.record_apply] at saved
  exact saved

/-- Whatever is asked, the answer is right and the session stays coherent. -/
theorem perform (coherent : Coherent s profiles) {request : Request} (normal : request.Normal) :
    ∃ s', s.perform request = (.ok (request.answer profiles), s') ∧ Coherent s' (request.effect profiles) := by
  cases request with
  | load key =>
    obtain ⟨s', answer, after⟩ := coherent.load key
    refine ⟨s', ?_, after⟩
    rw [Session.perform, answer]
    rfl
  | save profile name =>
    obtain ⟨s', done, after⟩ := coherent.save normal name
    refine ⟨s', ?_, after⟩
    rw [Session.perform, done]
    rfl
  | update change =>
    obtain ⟨s', done, after⟩ := coherent.update normal
    refine ⟨s', ?_, after⟩
    rw [Session.perform, done]
    rfl
  | reopen => exact ⟨_, rfl, .begin coherent.toKeeps⟩

/-- However much is asked, the answers are right and the session stays coherent. -/
theorem performAll {requests : List Request} (coherent : Coherent s profiles)
    (normal : ∀ request ∈ requests, request.Normal) :
    ∃ s' profiles', s.performAll requests = ((Request.answers profiles requests).map .ok, s') ∧
      Coherent s' profiles' := by
  induction requests generalizing s profiles with
  | nil => exact ⟨s, profiles, rfl, coherent⟩
  | cons request rest ih =>
    obtain ⟨first, others⟩ := List.forall_mem_cons.mp normal
    obtain ⟨next, answer, after⟩ := coherent.perform first
    obtain ⟨s', profiles', answers, last⟩ := ih after others
    refine ⟨s', profiles', ?_, last⟩
    rw [Session.performAll, answer]
    dsimp only
    rw [answers]
    rfl

end Coherent

/-- A session that begins without a store is coherent: every profile is blank. -/
theorem coherent_begin {format : StoreFormat} (givesBack : format.GivesBack) (room : HasRoom w)
    (missing : w.tree.at? (storeNames w.home) = none) :
    Coherent (begin format w) fun _ => .blank := by
  refine ⟨⟨givesBack, room, fun _ => Profile.normal_blank, none, .empty, ?_, .absent, fun _ => rfl⟩, ?_⟩
  · exact HasRoom.root_of_missing room missing
  · intro key record remembered
    cases remembered

/-- Each load of a session gives the profile that was stored last under its name, or a blank one if none
was, and nothing that is asked fails. Storing under one name changes what is loaded for that name only. -/
theorem loads_last_stored {format : StoreFormat} (givesBack : format.GivesBack) (room : HasRoom w)
    (missing : w.tree.at? (storeNames w.home) = none) {requests : List Request}
    (normal : ∀ request ∈ requests, request.Normal) :
    let done := (begin format w).performAll requests
    done.1 = (Request.answers (fun _ => .blank) requests).map .ok ∧
      ∀ request key, request.Normal → request.stored? ≠ some (key.getD currentName) →
        ((done.2.perform request).2.load key).1 = (done.2.load key).1 := by
  obtain ⟨s, profiles, answers, coherent⟩ := (coherent_begin givesBack room missing).performAll normal
  rw [answers]
  refine ⟨rfl, fun request key normal other => ?_⟩
  obtain ⟨s', done, after⟩ := coherent.perform normal
  obtain ⟨_, before, -⟩ := coherent.load key
  obtain ⟨_, later, -⟩ := after.load key
  rw [done, before]
  dsimp only
  rw [later, Request.effect_of_ne other]

namespace Home

/-- A home directory without a store. -/
def world : World :=
  ⟨⟨[(["home"], .directory), (["home", "user"], .directory)]⟩, .absolute ["home", "user"],
    .absolute ["home", "user"]⟩

/-- A profile for work. -/
def work : Profile :=
  { projectDir := some (.ofText "/srv/app"), methodName := "go", recursive := false }

/-- What is loaded and stored, in two sessions. -/
def requests : List Request :=
  [.load none, .save work "work", .load (some "work"), .update (.text .packages "app"), .load none,
    .load (some "Current"), .reopen, .load (some "work"), .load (some "other")]

theorem missing_world : world.tree.at? (storeNames world.home) = none := by decide

theorem hasRoom_world : HasRoom world := by
  have noFile : ∀ place ∈ (storeNames world.home).dropLast.inits, world.tree.isFile place = false := by
    decide
  refine ⟨rfl, by decide, connected_of_all (by decide), ?_, by simp [missing_world]⟩
  intro place inside bytes here
  cases (noFile place ((List.mem_inits place _).mpr inside)).symm.trans (isFile_iff.mpr ⟨bytes, here⟩)

theorem loads_last_stored_home :
    ((begin .yamlOrSpelled world).performAll requests).1 =
      [some Profile.blank.record, none, some work.record, none,
        some { Profile.blank with packages := "app" }.record,
        some { Profile.blank with packages := "app" }.record, none, some work.record,
        some Profile.blank.record].map .ok := by
  have work : work.Normal := by
    constructor
    · intro path member
      cases member
      exact Path.normal_ofText _
    · exact fun path member => nomatch member
    · exact fun path member => nomatch member
  have normal : ∀ request ∈ requests, request.Normal := by
    simp [requests, Request.Normal, Change.Normal, work]
  exact (loads_last_stored StoreFormat.givesBack_yamlOrSpelled hasRoom_world missing_world normal).1

end Home

end ProbeWeave.Session
