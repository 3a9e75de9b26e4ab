import ProbeWeave.Proofs.Project.Loaded

/-! # Classes by their names

A module files every class under its name, with the name of the module and methods that are defined
in it. The classes of a project that was read can therefore be told apart by the names of their
modules and their own, and no two of them share a method.
-/

set_option linter.dupNamespace false

namespace ProbeWeave

theorem Dictionary.mem_entries_put {κ α : Type} [BEq κ] [LawfulBEq κ] {d : Dictionary κ α}
    {key k : κ} {value v : α} (member : (k, v) ∈ (d.put key value).entries) :
    (k = key ∧ v = value) ∨ (k, v) ∈ d.entries := by
  obtain ⟨entries⟩ := d
  simp only [put] at member ⊢
  induction entries with
  | nil => simpa [putIn] using member
  | cons entry rest ih =>
    obtain ⟨first, old⟩ := entry
    rw [putIn] at member
    split at member
    · rename_i same
      rcases List.mem_cons.mp member with here | later
      · cases here
        exact .inl ⟨(eq_of_beq same).symm, rfl⟩
      · exact .inr (List.mem_cons_of_mem _ later)
    · rcases List.mem_cons.mp member with here | later
      · exact .inr (here ▸ List.mem_cons_self)
      · exact (ih later).imp_right (List.mem_cons_of_mem _)

namespace Project

open Syntax Graph Outcome

/-- Classes that a module files under their names. -/
structure Filed (module : String) (classes : Dictionary String ClassInfo) : Prop where
  distinct : classes.Distinct
  named : ∀ name c, (name, c) ∈ classes.entries → c.module = module ∧ c.name = name
  owned : ∀ c ∈ classes.values, ∀ d ∈ c.methods.values,
    d.routine.module = module ∧ d.routine.owner = some c.name

namespace SourceUnit

variable {unit : SourceUnit}

theorem mem_definitionsOf {owner : Option String} {ordinal : Nat} {body : List Stmt}
    {entry : String × Definition} (member : entry ∈ unit.definitionsOf owner ordinal body) :
    entry.2.routine.module = unit.name ∧ entry.2.routine.owner = owner := by
  obtain ⟨_, _, rfl⟩ := List.mem_mapIdx.mp member
  exact ⟨rfl, rfl⟩

theorem filed_addStatement {m : Module} (filed : Filed unit.name m.classes) (s : Stmt) :
    Filed unit.name (unit.addStatement m s).classes := by
  cases s with
  | classDef lines name bases keywords body decorators =>
    refine ⟨filed.distinct.put _ _, fun key c member => ?_, fun c member d isMethod => ?_⟩
    · rcases Dictionary.mem_entries_put member with ⟨rfl, rfl⟩ | old
      · exact ⟨rfl, rfl⟩
      · exact filed.named key c old
    · rcases Dictionary.mem_values_put member with rfl | old
      · obtain ⟨entry, inBody, rfl⟩ := List.mem_map.mp (Dictionary.mem_values_ofList isMethod)
        exact mem_definitionsOf inBody
      · exact filed.owned c old d isMethod
  | _ => exact filed

theorem filed_index (unit : SourceUnit) : Filed unit.name unit.index.classes := by
  have step : ∀ (body : List Stmt) (m : Module), Filed unit.name m.classes →
      Filed unit.name (body.foldl unit.addStatement m).classes := by
    intro body
    induction body with
    | nil => exact fun _ filed => filed
    | cons s rest ih => exact fun m filed => ih _ (filed_addStatement filed s)
  refine step unit.body ⟨unit, .empty, .empty, .empty, []⟩ ⟨List.nodup_nil, ?_, ?_⟩
  · simp [Dictionary.empty]
  · simp [Dictionary.values, Dictionary.empty]

end SourceUnit

theorem ClassInfo.withAttributes_eq {c typed : ClassInfo} (success : c.withAttributes = .ok typed) :
    typed = { c with attributes := typed.attributes } := by
  simp only [withAttributes, bind_eq_ok, pure_eq_ok] at success
  obtain ⟨_, -, _, -, rfl⟩ := success
  rfl

/-- The types of attributes change nothing about how classes are filed. -/
theorem Filed.withAttributes {m : Module} {name : String} (filed : Filed name m.classes) :
    Gives m.withAttributes fun typed => Filed name typed.classes := by
  intro typed success
  obtain ⟨entries, mapped, success⟩ := bind_eq_ok.mp success
  rw [pure_eq_ok] at success
  subst success
  obtain ⟨sameKeys, origin⟩ := Dictionary.mapM_entries mapped
  refine ⟨?_, fun key c member => ?_, fun c member d isMethod => ?_⟩
  · rw [Dictionary.Distinct, Dictionary.keys, sameKeys]
    exact filed.distinct
  · obtain ⟨old, inModule, typed⟩ := origin key c member
    rw [ClassInfo.withAttributes_eq typed]
    exact filed.named key old inModule
  · obtain ⟨⟨key, c⟩, inTyped, rfl⟩ := List.mem_map.mp member
    obtain ⟨old, inModule, typed⟩ := origin key c inTyped
    rw [ClassInfo.withAttributes_eq typed] at isMethod ⊢
    exact filed.owned old (List.mem_map_of_mem (f := Prod.snd) inModule) d isMethod

/-- Modules that all file their classes. -/
def AllFiled (modules : Dictionary String Module) : Prop :=
  ∀ name m, (name, m) ∈ modules.entries → Filed name m.classes

theorem AllFiled.addFiles {t : Files.FileTree} {root : List String} {hasSources : Bool}
    (files : List (List String)) {modules : Dictionary String Module} (all : AllFiled modules) :
    Gives (addFiles t root hasSources files modules).1 AllFiled := by
  induction files generalizing modules with
  | nil => exact gives_ok all
  | cons names rest ih =>
    rw [Project.addFiles]
    split
    · split
      · exact gives_error
      · exact ih all
      · rename_i unit read
        apply ih
        split
        · exact all
        · intro name m member
          rcases Dictionary.mem_entries_put member with ⟨rfl, rfl⟩ | old
          · exact SourceUnit.filed_index unit
          · exact all name m old
    · exact ih all

theorem load_filed (t : Files.FileTree) (root : List String) (packages : List String)
    (guesses : Bool) : Gives (load t root packages guesses).1 fun p => AllFiled p.modules := by
  intro p success
  simp only [load, bind_eq_ok, pure_eq_ok] at success
  obtain ⟨modules, read, entries, typed, rfl⟩ := success
  have start : AllFiled .empty := by
    intro _ _ member
    cases member
  have all := start.addFiles _ modules read
  intro name m member
  obtain ⟨old, inModules, typed⟩ := (Dictionary.mapM_entries typed).2 name m member
  exact (all name old inModules).withAttributes m typed

namespace Project

variable {p : Project}

/-- Classes of one name in modules of one name are one class. -/
theorem eq_of_sameClass (known : Known p.modules) (all : AllFiled p.modules) {a b : ClassInfo}
    (held : p.HoldsClass a) (held' : p.HoldsClass b) (same : sameClass a b = true) : a = b := by
  obtain ⟨m, inProject, inModule⟩ := held
  obtain ⟨m', inProject', inModule'⟩ := held'
  obtain ⟨⟨name, m⟩, entry, rfl⟩ := List.mem_map.mp inProject
  obtain ⟨⟨name', m'⟩, entry', rfl⟩ := List.mem_map.mp inProject'
  obtain ⟨⟨key, a⟩, filed, rfl⟩ := List.mem_map.mp inModule
  obtain ⟨⟨key', b⟩, filed', rfl⟩ := List.mem_map.mp inModule'
  obtain ⟨rfl, rfl⟩ := (all name m entry).named key a filed
  obtain ⟨rfl, rfl⟩ := (all name' m' entry').named key' b filed'
  simp only [sameClass, Bool.and_eq_true, beq_iff_eq] at same
  rw [← known.distinct.get?_eq_some] at entry entry'
  rw [same.1, entry'] at entry
  cases entry
  have distinct := (all _ m (known.distinct.get?_eq_some.mp entry')).distinct
  rw [← distinct.get?_eq_some] at filed filed'
  rw [same.2, filed'] at filed
  exact (Option.some.inj filed).symm

/-- A method tells the class that it was defined in. -/
theorem eq_of_method (known : Known p.modules) (all : AllFiled p.modules) {a b : ClassInfo}
    (held : p.HoldsClass a) (held' : p.HoldsClass b) {name : String} {d : Definition}
    (found : a.methods.get? name = some d) (found' : b.methods.get? name = some d) : a = b := by
  have tells : ∀ c, p.HoldsClass c → c.methods.get? name = some d →
      d.routine.module = c.module ∧ d.routine.owner = some c.name := by
    rintro c ⟨m, inProject, inModule⟩ found
    obtain ⟨⟨key, m⟩, entry, rfl⟩ := List.mem_map.mp inProject
    have classes := all key m entry
    obtain ⟨inFile, owner⟩ := classes.owned c inModule d (Dictionary.mem_values_of_get? found)
    obtain ⟨⟨name, c⟩, filed, rfl⟩ := List.mem_map.mp inModule
    exact ⟨inFile.trans (classes.named name c filed).1.symm, owner⟩
  obtain ⟨inFile, owner⟩ := tells a held found
  obtain ⟨inFile', owner'⟩ := tells b held' found'
  refine eq_of_sameClass known all held held' ?_
  simp only [sameClass, Bool.and_eq_true, beq_iff_eq]
  exact ⟨inFile.symm.trans inFile', Option.some.inj (owner.symm.trans owner')⟩

end Project

end Project

end ProbeWeave
