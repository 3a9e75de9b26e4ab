import ProbeWeave.Analysis
import ProbeWeave.Proofs.Graph.Closure

/-! # Projects that were read

The index of a module numbers its definitions by their places in the text, and a project knows its
modules by their names. Every routine of a project that was read can therefore be found again from
its module and its number.
-/

namespace ProbeWeave

/-- Computing new values for the entries of a dictionary leaves the keys alone. -/
theorem Dictionary.mapM_entries {κ ε α β : Type} {f : α → Except ε β} {entries : List (κ × α)}
    {mapped : List (κ × β)}
    (success : entries.mapM (fun (key, value) => do return (key, ← f value)) = .ok mapped) :
    mapped.map Prod.fst = entries.map Prod.fst ∧
      ∀ key new, (key, new) ∈ mapped → ∃ old, (key, old) ∈ entries ∧ f old = .ok new := by
  induction entries generalizing mapped with
  | nil => simp_all [Outcome.pure_eq_ok]
  | cons entry rest ih =>
    obtain ⟨key, old⟩ := entry
    simp only [List.mapM_cons, Outcome.bind_eq_ok, Outcome.pure_eq_ok] at success
    obtain ⟨_, ⟨new, found, rfl⟩, others, later, rfl⟩ := success
    obtain ⟨sameKeys, origin⟩ := ih later
    refine ⟨by simp [sameKeys], fun k n member => ?_⟩
    rcases List.mem_cons.mp member with same | member
    · cases same
      exact ⟨old, List.mem_cons_self, found⟩
    · obtain ⟨o, member, found⟩ := origin k n member
      exact ⟨o, List.mem_cons_of_mem _ member, found⟩

namespace Project

open Syntax Graph Outcome

/-- Whether a statement defines a function. -/
def isFunction : Stmt → Bool
  | .functionDef .. => true
  | _ => false

/-- The functions of a module and the methods of its classes, each with its class, in the order of
the text. -/
def indexed (body : List Stmt) : List (Option String × Stmt) :=
  body.flatMap fun s =>
    match s with
    | .functionDef .. => [(none, s)]
    | .classDef _ name _ _ body _ => (body.filter isFunction).map (some name, ·)
    | _ => []

/-- An index holds what the text of its module says. -/
structure Module.Sound (m : Module) : Prop where
  parsed : parseModule m.unit.source = .ok m.unit.body
  numbered : ∀ i (d : Definition), m.definitions[i]? = some d →
    d.routine.module = m.unit.name ∧ d.routine.ordinal = i
  written : m.definitions.map (fun d => (d.routine.owner, d.statement)) = indexed m.unit.body
  functions : ∀ d ∈ m.functions.values, d ∈ m.definitions
  methods : ∀ c ∈ m.classes.values, ∀ d ∈ c.methods.values, d ∈ m.definitions

namespace SourceUnit

variable (unit : SourceUnit)

theorem getElem?_definitionsOf {owner : Option String} {ordinal : Nat} {body : List Stmt} {i : Nat}
    {entry : String × Definition} (found : (unit.definitionsOf owner ordinal body)[i]? = some entry) :
    entry.2.routine.module = unit.name ∧ entry.2.routine.ordinal = ordinal + i := by
  simp only [definitionsOf, List.getElem?_mapIdx, Option.map_eq_some_iff] at found
  obtain ⟨_, -, rfl⟩ := found
  exact ⟨rfl, rfl⟩

theorem definitionsOf_written (owner : Option String) (ordinal : Nat) (body : List Stmt) :
    (unit.definitionsOf owner ordinal body).map (fun e => (e.2.routine.owner, e.2.statement)) =
      (body.filter isFunction).map (owner, ·) := by
  have mapped (found : List (String × Nat × Stmt)) :
      (found.mapIdx fun i e =>
          (e.1, (⟨unit.routineOf owner e.1 e.2.1 (ordinal + i), e.2.2⟩ : Definition))).map
        (fun e => (e.2.routine.owner, e.2.statement)) = found.map fun e => (owner, e.2.2) := by
    apply List.ext_getElem?
    intro i
    simp only [List.getElem?_map, List.getElem?_mapIdx, Option.map_map]
    rfl
  rw [definitionsOf]
  refine (mapped _).trans ?_
  induction body with
  | nil => rfl
  | cons s rest ih =>
    cases s <;> simp only [List.filterMap_cons, List.map_cons, List.filter_cons, isFunction, ih,
      if_true, Bool.false_eq_true, if_false]

/-- What holds of the index of a module after some of its statements. -/
structure Indexes (before : List Stmt) (m : Module) : Prop where
  own : m.unit = unit
  numbered : ∀ i (d : Definition), m.definitions[i]? = some d →
    d.routine.module = unit.name ∧ d.routine.ordinal = i
  written : m.definitions.map (fun d => (d.routine.owner, d.statement)) = indexed before
  functions : ∀ d ∈ m.functions.values, d ∈ m.definitions
  methods : ∀ c ∈ m.classes.values, ∀ d ∈ c.methods.values, d ∈ m.definitions

variable {unit}

/-- Definitions numbered from the number of those before keep all numbers right. -/
theorem numbered_append {ds : List Definition}
    (numbered : ∀ i (d : Definition), ds[i]? = some d →
      d.routine.module = unit.name ∧ d.routine.ordinal = i)
    (owner : Option String) (body : List Stmt) :
    ∀ i (d : Definition), (ds ++ (unit.definitionsOf owner ds.length body).map Prod.snd)[i]? = some d →
      d.routine.module = unit.name ∧ d.routine.ordinal = i := by
  intro i d found
  rw [List.getElem?_append] at found
  split at found
  · exact numbered i d found
  · rw [List.getElem?_map, Option.map_eq_some_iff] at found
    obtain ⟨entry, found, rfl⟩ := found
    obtain ⟨inModule, ordinal⟩ := getElem?_definitionsOf unit found
    exact ⟨inModule, by omega⟩

theorem Indexes.addStatement {before : List Stmt} {m : Module} (indexes : unit.Indexes before m)
    (s : Stmt) : unit.Indexes (before ++ [s]) (unit.addStatement m s) := by
  have written : indexed (before ++ [s]) = indexed before ++ indexed [s] := List.flatMap_append ..
  cases s with
  | functionDef lines isAsync name parameters body decorators returns =>
    refine ⟨indexes.own, numbered_append indexes.numbered none
      [.functionDef lines isAsync name parameters body decorators returns], ?_, ?_, ?_⟩
    · rw [written, ← indexes.written]
      exact List.map_append ..
    · intro d member
      refine (Dictionary.mem_values_put member).elim (fun same => ?_) fun old => ?_
      · exact List.mem_append_right _ (List.mem_singleton.mpr same)
      · exact List.mem_append_left _ (indexes.functions d old)
    · exact fun c held d member => List.mem_append_left _ (indexes.methods c held d member)
  | classDef lines name bases keywords body decorators =>
    refine ⟨indexes.own, numbered_append indexes.numbered (some name) body, ?_, ?_, ?_⟩
    · rw [written, ← indexes.written, SourceUnit.addStatement, List.map_append, List.map_map]
      congr 1
      rw [indexed, List.flatMap_singleton]
      exact definitionsOf_written unit (some name) m.definitions.length body
    · exact fun d member => List.mem_append_left _ (indexes.functions d member)
    · intro c held d member
      rcases Dictionary.mem_values_put held with rfl | old
      · exact List.mem_append_right _ (Dictionary.mem_values_ofList member)
      · exact List.mem_append_left _ (indexes.methods c old d member)
  | _ =>
    refine ⟨indexes.own, indexes.numbered, ?_, indexes.functions, indexes.methods⟩
    rw [written, ← indexes.written]
    exact (List.append_nil _).symm

theorem Indexes.addStatements (rest : List Stmt) {before : List Stmt} {m : Module}
    (indexes : unit.Indexes before m) :
    unit.Indexes (before ++ rest) (rest.foldl unit.addStatement m) := by
  induction rest generalizing before m with
  | nil => rwa [List.append_nil]
  | cons s rest ih =>
    rw [List.append_cons]
    exact ih (indexes.addStatement s)

theorem indexes_index (unit : SourceUnit) : unit.Indexes unit.body unit.index := by
  have start : unit.Indexes [] ⟨unit, .empty, .empty, .empty, []⟩ :=
    ⟨rfl, by simp, rfl, by simp [Dictionary.values, Dictionary.empty],
      by simp [Dictionary.values, Dictionary.empty]⟩
  have indexes := start.addStatements unit.body
  exact ⟨indexes.own, indexes.numbered, indexes.written, indexes.functions, indexes.methods⟩

theorem index_unit (unit : SourceUnit) : unit.index.unit = unit :=
  (indexes_index unit).own

/-- The index of a module that was parsed holds what its text says. -/
theorem index_sound (parsed : parseModule unit.source = .ok unit.body) : unit.index.Sound := by
  obtain ⟨own, numbered, written, functions, methods⟩ := indexes_index unit
  exact ⟨by rw [own]; exact parsed, by rw [own]; exact numbered, by rw [own]; exact written,
    functions, methods⟩

end SourceUnit

/-- The types of attributes are nothing that an index is asked for its definitions for. -/
theorem Module.Sound.withAttributes {m : Module} (sound : m.Sound) :
    Gives m.withAttributes fun typed => typed.unit = m.unit ∧ typed.Sound := by
  intro typed success
  obtain ⟨entries, mapped, success⟩ := bind_eq_ok.mp success
  rw [pure_eq_ok] at success
  subst success
  refine ⟨rfl, sound.parsed, sound.numbered, sound.written, sound.functions, ?_⟩
  intro c member d inClass
  obtain ⟨⟨name, c⟩, inTyped, rfl⟩ := List.mem_map.mp member
  obtain ⟨old, inModule, typed⟩ := (Dictionary.mapM_entries mapped).2 name c inTyped
  refine sound.methods old (List.mem_map_of_mem (f := Prod.snd) inModule) d ?_
  simp only [ClassInfo.withAttributes, bind_eq_ok, pure_eq_ok] at typed
  obtain ⟨_, -, _, -, rfl⟩ := typed
  exact inClass

/-- Modules that are known by their names, with indexes that hold what their texts say. -/
structure Known (modules : Dictionary String Module) : Prop where
  distinct : modules.Distinct
  named : ∀ name m, (name, m) ∈ modules.entries → m.unit.name = name
  sound : ∀ name m, (name, m) ∈ modules.entries → m.Sound

theorem Known.put {modules : Dictionary String Module} (known : Known modules) {unit : SourceUnit}
    (parsed : parseModule unit.source = .ok unit.body) :
    Known (modules.put unit.name unit.index) := by
  have own : unit.index.unit = unit := SourceUnit.index_unit unit
  have distinct := known.distinct.put unit.name unit.index
  have entry : ∀ name m, (name, m) ∈ (modules.put unit.name unit.index).entries →
      (name = unit.name ∧ m = unit.index) ∨ (name, m) ∈ modules.entries := by
    intro name m member
    rw [← distinct.get?_eq_some] at member
    by_cases same : name = unit.name
    · subst same
      rw [Dictionary.get?_put_self, Option.some.injEq] at member
      exact .inl ⟨rfl, member.symm⟩
    · rw [Dictionary.get?_put_of_ne same, known.distinct.get?_eq_some] at member
      exact .inr member
  refine ⟨distinct, fun name m member => ?_, fun name m member => ?_⟩
  · rcases entry name m member with ⟨rfl, rfl⟩ | old
    · rw [own]
    · exact known.named name m old
  · rcases entry name m member with ⟨rfl, rfl⟩ | old
    · exact SourceUnit.index_sound parsed
    · exact known.sound name m old

theorem Known.get? {modules : Dictionary String Module} (known : Known modules) {m : Module}
    (member : m ∈ modules.values) : modules.get? m.unit.name = some m := by
  obtain ⟨⟨name, m⟩, inEntries, rfl⟩ := List.mem_map.mp member
  rw [known.named name m inEntries]
  exact known.distinct.get?_eq_some.mpr inEntries

theorem Known.sound_of_mem {modules : Dictionary String Module} (known : Known modules) {m : Module}
    (member : m ∈ modules.values) : m.Sound := by
  obtain ⟨⟨name, m⟩, inEntries, rfl⟩ := List.mem_map.mp member
  exact known.sound name m inEntries

/-- A module that is read has the body that its text is parsed to. -/
theorem parsed_of_readUnit {root names : List String} {hasSources : Bool} {bytes : ByteArray}
    {unit : SourceUnit} (read : readUnit root hasSources names bytes = .unit unit) :
    parseModule unit.source = .ok unit.body := by
  unfold readUnit at read
  dsimp only at read
  split at read
  · cases read
  · split at read
    · cases read
    · cases read
    · rename_i body parsed
      cases read
      exact parsed

/-- A file is read as the module with its text, its tree and the name of the file. -/
theorem readUnit_of_parsed {root names : List String} {hasSources : Bool} {bytes : ByteArray}
    {unit : SourceUnit}
    (decoded : Text.Utf8.decode (bytes.toList.map UInt8.toNat) = .ok unit.source)
    (parsed : parseModule unit.source = .ok unit.body) (path : unit.path = .absolute names)
    (relative : unit.relative = ⟨0, names.drop root.length⟩)
    (named : moduleName (if hasSources && (names.drop root.length).head? == some "src" then
      (names.drop root.length).drop 1 else names.drop root.length) = (unit.name, unit.isPackage)) :
    readUnit root hasSources names bytes = .unit unit := by
  simp only [readUnit, decoded, parsed, named, ← path, ← relative]

theorem Known.addFiles {t : Files.FileTree} {root : List String} {hasSources : Bool}
    (files : List (List String)) {modules : Dictionary String Module} (known : Known modules) :
    Gives (addFiles t root hasSources files modules).1 Known := by
  induction files generalizing modules with
  | nil => exact gives_ok known
  | cons names rest ih =>
    rw [Project.addFiles]
    split
    · split
      · exact gives_error
      · exact ih known
      · rename_i unit read
        apply ih
        split
        · exact known
        · exact known.put (parsed_of_readUnit read)
    · exact ih known

/-- A project that is loaded knows its modules. -/
theorem load_known (t : Files.FileTree) (root : List String) (packages : List String)
    (guesses : Bool) : Gives (load t root packages guesses).1 fun p => Known p.modules := by
  have start : Known .empty := ⟨List.nodup_nil, by simp [Dictionary.empty], by simp [Dictionary.empty]⟩
  intro p success
  simp only [load, bind_eq_ok, pure_eq_ok] at success
  obtain ⟨modules, read, entries, typed, rfl⟩ := success
  have known := start.addFiles _ modules read
  obtain ⟨sameKeys, origin⟩ := Dictionary.mapM_entries typed
  refine ⟨?_, fun name m member => ?_, fun name m member => ?_⟩
  · rw [Dictionary.Distinct, Dictionary.keys, sameKeys]
    exact known.distinct
  · obtain ⟨old, inModules, typed⟩ := origin name m member
    rw [((known.sound name old inModules).withAttributes m typed).1]
    exact known.named name old inModules
  · obtain ⟨old, inModules, typed⟩ := origin name m member
    exact ((known.sound name old inModules).withAttributes m typed).2

end Project

end ProbeWeave
