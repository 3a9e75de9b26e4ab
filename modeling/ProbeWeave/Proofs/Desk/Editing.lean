import ProbeWeave.Desk.Keeping
import ProbeWeave.Proofs.Profile.Coherence

/-! # Editing a profile

To edit a profile is to be asked for its settings anew, with those it has suggested. If every suggestion is
taken, all settings come back that are asked for or copied; only where the copy of the project goes is
asked for some profiles alone, and the others get one or lose it.
-/

namespace ProbeWeave

open Files

/-! ### Texts and paths that come back -/

namespace Text

/-- A text without blanks at its ends loses nothing when it is stripped. -/
theorem strip_eq_self {s : String} {first last : Char} (begins : s.toList.head? = some first)
    (ends : s.toList.getLast? = some last) (front : isBlank first = false) (back : isBlank last = false) :
    strip s = s := by
  obtain ⟨rest, chars⟩ := List.head?_eq_some_iff.mp begins
  obtain ⟨before, whole⟩ := List.getLast?_eq_some_iff.mp ends
  have kept : s.toList.dropWhile isBlank = s.toList := by
    rw [chars, List.dropWhile_cons_of_neg (by simp [front])]
  have reversed : s.toList.reverse.dropWhile isBlank = s.toList.reverse := by
    rw [whole, List.reverse_concat, List.dropWhile_cons_of_neg (by simp [back])]
  rw [strip, stripChars, kept, dropEndWhile, reversed, List.reverse_reverse, String.ofList_toList]

end Text

namespace Files.Path

/-- Whether a path is as resolving and reading give it, and written without blanks around it. -/
structure Plain (path : Path) : Prop where
  rooted : path.slashes = 1
  straight : ".." ∉ path.names
  normal : path.Normal
  trimmed : Text.strip path.text = path.text

variable {path cwd : Path} {w : World} {names : List String}

theorem resolveNames_of_straight (straight : ".." ∉ names) (start : List String) :
    resolveNames start names = start ++ names := by
  induction names generalizing start with
  | nil => exact (List.append_nil start).symm
  | cons name rest ih =>
    obtain ⟨first, later⟩ := not_or.mp (List.mem_cons.not.mp straight)
    rw [resolveNames, List.foldl_cons, if_neg (by simpa using Ne.symm first), ← resolveNames, ih later,
      List.append_assoc, List.singleton_append]

namespace Plain

theorem isAbsolute (plain : Plain path) : path.isAbsolute = true := by
  rw [Path.isAbsolute, plain.rooted]
  rfl

theorem expandHome? (plain : Plain path) (home : Path) : path.expandHome? home = some path := by
  rw [Path.expandHome?, plain.isAbsolute]

/-- What a plain path is written as stands for it. -/
theorem resolve? (plain : Plain path) (w : World) : w.resolve? (ofText path.text) = some path := by
  rw [World.resolve?, ofText_text plain.normal, plain.expandHome?, Option.map_some, resolve,
    if_pos plain.isAbsolute, resolveNames_of_straight plain.straight, List.nil_append, absolute,
    ← plain.rooted]

end Plain

theorem getLast?_intercalate (names : List String) {last : String} {c : Char}
    (ends : last.toList.getLast? = some c) :
    ("/".intercalate (names ++ [last])).toList.getLast? = some c := by
  induction names with
  | nil => simpa using ends
  | cons name rest ih =>
    obtain ⟨next, others, more⟩ := List.exists_cons_of_ne_nil (List.append_ne_nil_of_right_ne_nil rest
      (List.cons_ne_nil last []))
    rw [more] at ih
    rw [List.cons_append, more, String.intercalate_cons_cons, String.toList_append,
      List.getLast?_append_of_ne_nil]
    · exact ih
    · rintro empty
      rw [empty] at ih
      cases ih

/-- What is suggested beside a project is a plain path. -/
theorem plain_besideProject (rooted : path.slashes = 1) (straight : ".." ∉ path.names)
    (normal : path.Normal) : Plain (besideProject path) := by
  have names : (besideProject path).names = path.names.dropLast ++ [path.name ++ "_timed"] := rfl
  have slashes : (besideProject path).slashes = 1 := rooted
  have ends : (path.name ++ "_timed").toList = path.name.toList ++ ['_', 't', 'i', 'm', 'e', 'd'] := by
    rw [String.toList_append]
    rfl
  have own : ∀ name ∈ (besideProject path).names,
      name ∈ path.names ∨ name = path.name ++ "_timed" := by
    intro name member
    rw [names, List.mem_append, List.mem_singleton] at member
    exact member.imp_left List.mem_of_mem_dropLast
  have long : 6 ≤ (path.name ++ "_timed").length := by
    rw [String.length_append]
    exact Nat.le_add_left 6 _
  refine ⟨slashes, fun up => ?_, ⟨by omega, fun name member => ?_, fun name member => ?_⟩, ?_⟩
  · rcases own _ up with up | up
    · exact straight up
    · rw [← up] at long
      exact absurd long (by decide)
  · rcases own name member with member | rfl
    · exact normal.stepped name member
    · constructor <;> intro short <;> rw [short] at long <;> exact absurd long (by decide)
  · rcases own name member with member | rfl
    · exact normal.whole name member
    · rw [ends, List.mem_append, not_or]
      refine ⟨?_, by decide⟩
      rw [Path.name]
      cases last : path.names.getLast? with
      | none => exact List.not_mem_nil
      | some name => exact normal.whole name (List.mem_of_getLast? last)
  · have written : (besideProject path).text =
        "/" ++ "/".intercalate (path.names.dropLast ++ [path.name ++ "_timed"]) := by
      rw [text, slashes, names]
      rfl
    have back : (path.name ++ "_timed").toList.getLast? = some 'd' := by
      rw [ends, List.getLast?_append_of_ne_nil _ (List.cons_ne_nil '_' _)]
      rfl
    have nonempty := List.getLast?_isSome.mp (Option.isSome_of_mem (getLast?_intercalate path.names.dropLast back))
    rw [written]
    have slash : "/".toList = ['/'] := rfl
    have front : ∀ s : String, ("/" ++ s).toList.head? = some '/' := fun s => by
      rw [String.toList_append, slash]
      rfl
    refine Text.strip_eq_self (front _) ?_ (by decide) (show Text.isBlank 'd' = false by decide)
    rw [String.toList_append, List.getLast?_append_of_ne_nil _ nonempty]
    exact getLast?_intercalate path.names.dropLast back

end Files.Path

/-! ### Tasks that end -/

namespace Task

variable {α β : Type} {x : Task α} {f : α → Task β} {s s' s'' : Session}
  {answers answers' answers'' : List (Option String)} {v : α} {r : β}

/-- Whether a task gives a value, takes a session to another one, and leaves the rest of some answers,
whatever has been printed and asked before. -/
def Ends (x : Task α) (s : Session) (answers : List (Option String)) (v : α) (s' : Session)
    (answers' : List (Option String)) : Prop :=
  ∀ desk : Desk, desk.session = s → desk.answers = answers →
    ∃ desk', x.run.run desk = (.ok v, desk') ∧ desk'.session = s' ∧ desk'.answers = answers'

theorem Ends.bind (first : Ends x s answers v s' answers') (second : Ends (f v) s' answers' r s'' answers'') :
    Ends (x >>= f) s answers r s'' answers'' := by
  intro desk session given
  obtain ⟨between, done, session', given'⟩ := first desk session given
  obtain ⟨desk', ended, last⟩ := second between session' given'
  refine ⟨desk', ?_, last⟩
  rw [ExceptT.run_bind, StateT.run_bind, done]
  exact ended

theorem ends_pure (v : α) (s : Session) (answers : List (Option String)) :
    Ends (pure v) s answers v s answers :=
  fun desk session given => ⟨desk, rfl, session, given⟩

theorem ends_world (s : Session) (answers : List (Option String)) :
    Ends world s answers s.world s answers :=
  fun desk session given => ⟨desk, session ▸ rfl, session, given⟩

theorem ends_say (line : String) (s : Session) (answers : List (Option String)) :
    Ends (say line) s answers () s answers :=
  fun _ session given => ⟨_, rfl, session, given⟩

theorem ends_check {ε : Type} (fault : ε → TaskFault) (v : α) (s : Session) (answers : List (Option String)) :
    Ends (check fault (.ok v)) s answers v s answers :=
  fun desk session given => ⟨desk, rfl, session, given⟩

/-- A suggestion that is accepted as it is takes one answer. -/
theorem ends_ask {q : Question α} {text : String} (suggests : q.default = .text text)
    (accepts : q.judge text = .accepted v) (s : Session) (answers : List (Option String)) :
    Ends (ask q) s (none :: answers) v s answers := by
  intro desk session given
  have asked : q.put desk.answers = ⟨.ok v, answers, [⟨q.text, q.default, .text text, none⟩]⟩ := by
    rw [given, Question.put]
    simp only [Option.elim, suggests, accepts]
  refine ⟨{ desk with
    answers := answers, prompts := desk.prompts ++ [⟨q.text, q.default, .text text, none⟩] }, ?_, session, rfl⟩
  change ((check id (q.put desk.answers).result).run.run
    { desk with
      answers := (q.put desk.answers).answers, prompts := desk.prompts ++ (q.put desk.answers).prompts }) = _
  rw [asked]
  rfl

theorem ends_onSession {step : Session → Except StoreFault α × Session} (done : step s = (.ok v, s'))
    (answers : List (Option String)) : Ends (onSession step) s answers v s' answers := by
  intro desk session given
  refine ⟨{ desk with session := s' }, ?_, rfl, given⟩
  change ((check .store (step desk.session).1).run.run { desk with session := (step desk.session).2 }) = _
  rw [session, done]
  rfl

theorem ends_resolve {answer : String} {path : Path} (resolved : s.world.resolve? (.ofText answer) = some path)
    (answers : List (Option String)) : Ends (resolve answer) s answers path s answers := by
  refine (ends_world s answers).bind ?_
  rw [resolved]
  exact ends_pure path s answers

end Task

/-! ### Taking what is suggested -/

namespace Profile

/-- Whether what is asked for in an interview comes back if it is suggested: the texts have no blanks
around them, the method is a name, and the paths are plain. The project has to be there; if none is
given, the working directory is taken for it. -/
structure Tidy (p : Profile) (w : World) : Prop where
  packages : Text.strip p.packages = p.packages
  className : Text.strip p.className = p.className
  methodName : Text.strip p.methodName = p.methodName
  identifier : Text.isIdentifier p.methodName = true
  project : ∀ path ∈ p.projectDir, path.Plain ∧ w.pathExists path = true
  output : ∀ path ∈ p.outputDir, path.Plain
  working : p.projectDir = none → w.pathExists ⟨0, []⟩ = true ∧ ".." ∉ w.cwd.names ∧
    (Path.absolute w.cwd.names).Normal

/-- The project that is meant by a profile. -/
def projectIn (p : Profile) (w : World) : Path :=
  p.projectDir.getD (.absolute w.cwd.names)

/-- A profile whose project and output directory are those that an interview gives it if all that is
suggested is taken. -/
def settled (p : Profile) (w : World) : Profile :=
  { p with
    projectDir := some (p.projectIn w)
    outputDir := if p.inPlace then none else some (p.outputDir.getD (besideProject (p.projectIn w))) }

/-- The number of questions that an interview asks about a profile. -/
def questions (p : Profile) : Nat :=
  if p.inPlace then 6 else 7

variable {p : Profile} {w : World}

/-- A profile stays as it is exactly if it has a project, and an output directory only where one is asked
for. -/
theorem settled_eq_iff : p.settled w = p ↔ p.projectDir.isSome ∧ p.inPlace = p.outputDir.isNone := by
  obtain ⟨projectDir, packages, className, methodName, reportVariable, reportFile, recursive, inPlace,
    outputDir, generateReport, exclude, ambiguousFallback, jobs⟩ := p
  cases projectDir <;> cases inPlace <;> cases outputDir <;> simp [settled, projectIn]

/-- The text of the project that is suggested. -/
def projectText (p : Profile) : String :=
  (p.projectDir.map Path.text).getD ""

namespace Tidy

variable (tidy : Tidy p w)
include tidy

/-- The project that is suggested is accepted. -/
theorem accepts_project (text : String) (default : Value) :
    (Question.forExisting w text default).judge p.projectText = .accepted p.projectText := by
  rw [Question.forExisting, projectText]
  dsimp only
  cases given : p.projectDir with
  | none =>
    have here : Path.ofText "" = ⟨0, []⟩ := by decide
    have same : Path.expandHome? ⟨0, []⟩ w.home = some ⟨0, []⟩ := rfl
    rw [Option.map_none, Option.getD_none, here, same]
    simp only [(tidy.working given).1, if_true]
    rfl
  | some path =>
    obtain ⟨plain, there⟩ := tidy.project path given
    rw [Option.map_some, Option.getD_some, Path.ofText_text plain.normal, plain.expandHome?]
    simp only [there, if_true, plain.trimmed]

theorem resolve?_project : w.resolve? (.ofText p.projectText) = some (p.projectIn w) := by
  rw [projectText, projectIn]
  cases given : p.projectDir with
  | none =>
    have here : Path.ofText "" = ⟨0, []⟩ := by decide
    rw [Option.map_none, Option.getD_none, here]
    rfl
  | some path => exact (tidy.project path given).1.resolve? w

/-- The output directory that is suggested is a plain path. -/
theorem plain_output : (p.outputDir.getD (besideProject (p.projectIn w))).Plain := by
  cases given : p.outputDir with
  | some path => exact tidy.output path given
  | none =>
    rw [Option.getD_none, projectIn]
    cases named : p.projectDir with
    | none =>
      obtain ⟨-, straight, normal⟩ := tidy.working named
      exact Path.plain_besideProject rfl straight normal
    | some path =>
      obtain ⟨plain, -⟩ := tidy.project path named
      exact Path.plain_besideProject plain.rooted plain.straight plain.normal

theorem normal_settled (before : p.Normal) : (p.settled w).Normal := by
  refine ⟨?_, before.reportFile, ?_⟩
  · rintro path ⟨⟩
    rw [projectIn]
    cases given : p.projectDir with
    | none => exact (tidy.working given).2.2
    | some path => exact (tidy.project path given).1.normal
  · intro path member
    rw [settled] at member
    dsimp only at member
    split at member
    · cases member
    · cases member
      exact tidy.plain_output.normal

end Tidy

end Profile

namespace Task

variable {p : Profile} {s : Session}

theorem accepts_text {shown : String} (trimmed : Text.strip shown = shown) (text : String) (default : Value) :
    (Question.forText text default).judge shown = .accepted shown :=
  congrArg Verdict.accepted trimmed

theorem accepts_identifier {shown : String} (trimmed : Text.strip shown = shown)
    (identifier : Text.isIdentifier shown = true) (text : String) (default : Value) :
    (Question.forIdentifier text default).judge shown = .accepted shown := by
  rw [Question.forIdentifier]
  dsimp only
  rw [trimmed, if_pos identifier]

theorem accepts_answer (b : Bool) (text : String) (default : Bool) :
    (Question.forAnswer text default).judge (answerWord b) = .accepted b := by
  rw [Question.forAnswer]
  dsimp only
  rw [yesOrNo?_answerWord]

/-- An interview in which all that is suggested for a profile is taken gives the profile as it is settled,
once the settings that are not asked for are copied. -/
theorem ends_interview (tidy : p.Tidy s.world) (answers : List (Option String)) :
    ∃ new, Ends (interview (suggestionsOf p)) s (List.replicate p.questions none ++ answers) new s answers ∧
      keepUnasked p new = p.settled s.world := by
  let told (outputDir : Option Path) : Profile :=
    { projectDir := some (p.projectIn s.world), packages := p.packages, className := p.className,
      methodName := p.methodName, recursive := p.recursive, inPlace := p.inPlace, outputDir }
  refine ⟨told (p.settled s.world).outputDir, ?_, rfl⟩
  have counted : List.replicate p.questions none ++ answers =
      none :: none :: none :: none :: none :: none ::
        (List.replicate (p.questions - 6) none ++ answers) := by
    cases own : p.inPlace <;> simp [Profile.questions, own, List.replicate]
  rw [interview, counted]
  refine (ends_world s _).bind ((ends_ask rfl (tidy.accepts_project ..) s _).bind ?_)
  refine (ends_ask rfl (accepts_text tidy.packages ..) s _).bind ?_
  refine (ends_ask rfl (accepts_text tidy.className ..) s _).bind ?_
  refine (ends_ask rfl (accepts_identifier tidy.methodName tidy.identifier ..) s _).bind ?_
  refine (ends_ask rfl (accepts_answer p.recursive ..) s _).bind ?_
  refine (ends_ask rfl (accepts_answer p.inPlace ..) s _).bind ?_
  refine (ends_resolve tidy.resolve?_project _).bind ?_
  by_cases own : p.inPlace = true
  · have none_left : p.questions - 6 = 0 := by rw [Profile.questions, if_pos own]
    have lost : (p.settled s.world).outputDir = none := if_pos own
    rw [none_left, if_pos own, lost]
    exact (ends_pure none s answers).bind (ends_pure (told none) s answers)
  · -- The path is suggested as a text, and resolved from it again.
    have one_left : p.questions - 6 = 1 := by rw [Profile.questions, if_neg own]
    have plain := tidy.plain_output
    have shown : (suggestionsOf p).output.getD (besideProject (p.projectIn s.world)).text =
        (p.outputDir.getD (besideProject (p.projectIn s.world))).text := by
      rw [suggestionsOf]
      cases p.outputDir <;> rfl
    have kept : (p.settled s.world).outputDir =
        some (p.outputDir.getD (besideProject (p.projectIn s.world))) := if_neg own
    rw [one_left, if_neg own, shown, kept]
    refine (ends_ask rfl (accepts_text plain.trimmed ..) s _).bind ?_
    refine Ends.bind ?_ (ends_pure (told _) s answers)
    exact (ends_resolve (plain.resolve? s.world) _).bind (ends_pure _ s answers)

end Task

/-! ### Editing -/

namespace Profile

theorem normal_of_toPath {names : Value.KindNames} {v : Value} {path : Option Path}
    (read : v.toPath names = .ok path) : ∀ q ∈ path, q.Normal := by
  unfold Value.toPath at read
  split at read
  · cases read
    simp
  · split at read
    · cases read
      rintro q ⟨⟩
      exact Path.normal_ofText _
    · cases read

/-- The paths of a profile that was read from a record are as reading gives them. -/
theorem normal_of_ofRecord {names : Value.KindNames} {r : Record} {p : Profile}
    (read : ofRecord names r = .ok p) : p.Normal := by
  unfold ofRecord at read
  extract_lets _ path at read
  have normal (key : String) {found? : Option Path} (found : path key = .ok found?) :
      ∀ q ∈ found?, q.Normal := by
    simp only [path] at found
    split at found
    · exact normal_of_toPath found
    · cases found
      simp
  obtain ⟨project, first, read⟩ := Outcome.bind_eq_ok.mp read
  obtain ⟨report, second, read⟩ := Outcome.bind_eq_ok.mp read
  obtain ⟨recursive, -, read⟩ := Outcome.bind_eq_ok.mp read
  obtain ⟨inPlace, -, read⟩ := Outcome.bind_eq_ok.mp read
  obtain ⟨output, third, read⟩ := Outcome.bind_eq_ok.mp read
  obtain ⟨generate, -, read⟩ := Outcome.bind_eq_ok.mp read
  obtain ⟨fallback, -, read⟩ := Outcome.bind_eq_ok.mp read
  dsimp only at read
  split at read <;>
  · obtain ⟨jobs, -, read⟩ := Outcome.bind_eq_ok.mp read
    cases read
    exact ⟨normal _ first, normal _ second, normal _ third⟩

end Profile

namespace Session

open Yaml

variable {s : Session} {d : Dictionary String Record} {name : String} {p : Profile} {w : World}

/-- Whether a session has a store of records, with a profile under a name, and remembers that profile only
for the name. -/
structure Stores (s : Session) (d : Dictionary String Record) (name : String) (p : Profile) : Prop where
  givesBack : s.format.GivesBack
  room : HasRoom s.world
  holds : ∃ root, s.root = .ok root ∧ Store.Holds root d
  stored : ∃ r, d.get? name = some r ∧ Profile.ofRecord Node.kinds r = .ok p
  remembered : ∀ r, s.loaded.get? (some name) = some r → r = p.record

namespace Stores

theorem normal (stores : Stores s d name p) : p.Normal :=
  have ⟨_, _, read⟩ := stores.stored
  Profile.normal_of_ofRecord read

theorem fetch (stores : Stores s d name p) : s.fetch name = .ok p.record := by
  obtain ⟨root, found, holds⟩ := stores.holds
  obtain ⟨r, here, read⟩ := stores.stored
  rw [Session.fetch, found]
  cases holds with
  | absent => cases here
  | map maps =>
    have there := maps.find? name
    rw [here] at there
    obtain ⟨node, there, settings⟩ := there
    simp only [bind, Except.bind, Store.profile, there, Store.profileOf, Store.recordOf_eq_ok settings,
      Outcome.mapError_ok, read]
    rfl

/-- Loading the profile gives it and leaves the store. -/
theorem load (stores : Stores s d name p) :
    ∃ s', s.load (some name) = (.ok p.record, s') ∧ s'.world = s.world ∧ Stores s' d name p := by
  rw [Session.load]
  split
  · rename_i record remembered
    exact ⟨s, by rw [stores.remembered record remembered], rfl, stores⟩
  · rw [Option.getD_some, stores.fetch]
    refine ⟨_, rfl, rfl, ⟨stores.givesBack, stores.room, stores.holds, stores.stored, fun r again => ?_⟩⟩
    rw [Dictionary.get?_put_self] at again
    exact (Option.some.inj again).symm

/-- What is saved under the name is stored there, and everything else stays. -/
theorem save (stores : Stores s d name p) {new : Profile} (normal : new.Normal) :
    ∃ s', s.save new.record name = (.ok (), s') ∧ Stores s' (d.put name new.record) name new := by
  obtain ⟨root, found, holds⟩ := stores.holds
  obtain ⟨tree, root', saved, room, found', holds'⟩ :=
    save_holds stores.givesBack stores.room found holds new name
  refine ⟨_, saved, ⟨stores.givesBack, room, ⟨root', found', holds'⟩, ⟨_, Dictionary.get?_put_self ..,
    Profile.ofRecord_record Node.kinds normal⟩, fun r again => ?_⟩⟩
  cases again

/-- Above a store that holds something there is the home directory. -/
theorem home_exists (stores : Stores s d name p) :
    s.world.tree.at? s.world.home.names = some .directory := by
  obtain ⟨root, found, holds⟩ := stores.holds
  obtain ⟨r, here, -⟩ := stores.stored
  have there : s.world.pathExists s.storePath = true := by
    by_contra missing
    rw [Session.root, if_neg missing] at found
    cases found
    cases holds
    cases here
  rw [World.pathExists, FileTree.pathExists, stores.room.connected.find? stores.room.rooted_storePath
    stores.room.straight_storePath, names_storePath] at there
  obtain ⟨content, file⟩ := Option.isSome_iff_exists.mp there
  exact stores.room.connected.above file (by simp)

/-- Editing the profile and taking everything that is suggested saves it as it is settled. -/
theorem ends_editProfile (stores : Stores s d name p) (tidy : p.Tidy s.world)
    (later : List (Option String)) :
    ∃ s', Task.Ends (Task.editProfile name) s (List.replicate p.questions none ++ later) () s' later ∧
      Stores s' (d.put name (p.settled s.world).record) name (p.settled s.world) := by
  obtain ⟨loaded, load, world, stores⟩ := stores.load
  rw [← world] at tidy ⊢
  obtain ⟨new, interviewed, settled⟩ := Task.ends_interview tidy later
  obtain ⟨saved, save, stored⟩ := stores.save (tidy.normal_settled stores.normal)
  refine ⟨saved, (Task.ends_onSession load _).bind ?_, stored⟩
  rw [Profile.ofRecord_record Value.plainKinds stores.normal]
  refine (Task.ends_check _ p _ _).bind ((Task.ends_say _ _ _).bind (interviewed.bind ?_))
  rw [settled]
  exact (Task.ends_onSession save _).bind (Task.ends_say _ _ _)

end Stores

/-- Editing a profile and taking everything that is suggested stores the profile as it is settled under its
name, and leaves the other profiles of the store as they are. The profile stays as it is exactly if it has
a project, and an output directory only where the project itself is not overwritten. -/
theorem editProfile_suggested {desk : Desk} {later : List (Option String)}
    (stores : Stores desk.session d name p) (tidy : p.Tidy desk.session.world)
    (answers : desk.answers = List.replicate p.questions none ++ later) :
    ∃ desk' d', (Task.editProfile name).run.run desk = (.ok (), desk') ∧ desk'.answers = later ∧
      Stores desk'.session d' name (p.settled desk.session.world) ∧
      (∀ other, other ≠ name → d'.get? other = d.get? other) ∧
      (p.settled desk.session.world = p ↔ p.projectDir.isSome ∧ p.inPlace = p.outputDir.isNone) := by
  obtain ⟨s', ends, stored⟩ := stores.ends_editProfile tidy later
  obtain ⟨desk', done, rfl, rest⟩ := ends desk rfl answers
  exact ⟨desk', _, done, rest, stored, fun other different => Dictionary.get?_put_of_ne different ..,
    Profile.settled_eq_iff⟩

namespace Home

/-- The path of the home directory. -/
def directory : Path :=
  .absolute ["home", "user"]

theorem plain_directory : directory.Plain :=
  ⟨rfl, by decide, ⟨by decide, by decide, by decide⟩, by decide⟩

/-- A profile of the home directory itself, with or without a directory for a copy. -/
def overwriting (outputDir : Option Path) : Profile :=
  { projectDir := some directory, methodName := "go", inPlace := true, outputDir }

/-- The profile can be stored, and is tidy then. -/
theorem exists_stored {outputDir : Option Path} (output : ∀ path ∈ outputDir, path.Plain) :
    ∃ (desk : Desk) (d : Dictionary String Record), Stores desk.session d "work" (overwriting outputDir) ∧
      (overwriting outputDir).Tidy desk.session.world ∧
      desk.answers = List.replicate (overwriting outputDir).questions none ++ [] := by
  have normal : (overwriting outputDir).Normal := by
    refine ⟨?_, by simp [overwriting], fun path member => (output path member).normal⟩
    rintro path ⟨⟩
    exact plain_directory.normal
  obtain ⟨tree, root, -, room, found, holds⟩ := save_holds (s := begin .yamlOrSpelled world)
    StoreFormat.givesBack_yamlOrSpelled hasRoom_world (HasRoom.root_of_missing hasRoom_world missing_world)
    .absent (overwriting outputDir) "work"
  have stores : Stores ⟨.yamlOrSpelled, world.withTree tree, .empty⟩
      (Dictionary.empty.put "work" (overwriting outputDir).record) "work" (overwriting outputDir) :=
    ⟨StoreFormat.givesBack_yamlOrSpelled, room, ⟨root, found, holds⟩, ⟨_, Dictionary.get?_put_self ..,
      Profile.ofRecord_record Node.kinds normal⟩, by rintro r ⟨⟩⟩
  have there : (world.withTree tree).pathExists directory = true := by
    rw [World.pathExists, FileTree.pathExists, stores.room.connected.find?
      plain_directory.isAbsolute plain_directory.straight]
    exact Option.isSome_of_mem stores.home_exists
  refine ⟨⟨_, _, [], "", []⟩, _, stores, ⟨(by decide : Text.strip "" = ""),
    (by decide : Text.strip "" = ""), (by decide : Text.strip "go" = "go"),
    (by decide : Text.isIdentifier "go" = true), ?_, output, ?_⟩, rfl⟩
  · rintro path ⟨⟩
    exact ⟨plain_directory, there⟩
  · rintro ⟨⟩

/-- A profile that comes back. -/
theorem editProfile_suggested_overwriting :
    ∃ (desk : Desk) (d : Dictionary String Record), Stores desk.session d "work" (overwriting none) ∧
      ∃ desk' d', (Task.editProfile "work").run.run desk = (.ok (), desk') ∧ desk'.answers = [] ∧
        Stores desk'.session d' "work" ((overwriting none).settled desk.session.world) ∧
        (∀ other, other ≠ "work" → d'.get? other = d.get? other) ∧
        ((overwriting none).settled desk.session.world = overwriting none ↔
          (overwriting none).projectDir.isSome ∧
            (overwriting none).inPlace = (overwriting none).outputDir.isNone) := by
  obtain ⟨desk, d, stores, tidy, answers⟩ := @exists_stored none (by simp)
  exact ⟨desk, d, stores, editProfile_suggested stores tidy answers⟩

/-- A profile that loses the directory that it had for a copy. -/
theorem editProfile_loses_output :
    ∃ (desk desk' : Desk) (d d' : Dictionary String Record) (p new : Profile),
      Stores desk.session d "work" p ∧ p.Tidy desk.session.world ∧ p.projectDir = some directory ∧
        p.outputDir = some directory ∧ desk.answers = List.replicate 6 none ∧
        (Task.editProfile "work").run.run desk = (.ok (), desk') ∧ Stores desk'.session d' "work" new ∧
        new.outputDir = none := by
  obtain ⟨desk, d, stores, tidy, answers⟩ := @exists_stored (some directory) (by
    rintro path ⟨⟩
    exact plain_directory)
  obtain ⟨s', ends, stored⟩ := stores.ends_editProfile tidy []
  obtain ⟨desk', done, rfl, -⟩ := ends desk rfl answers
  exact ⟨desk, desk', d, _, _, _, stores, tidy, rfl, rfl, answers, done, stored, rfl⟩

end Home

end Session

end ProbeWeave
