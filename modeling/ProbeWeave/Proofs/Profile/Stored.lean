import Mathlib.Data.List.Forall2
import Mathlib.Logic.Equiv.List
import ProbeWeave.Profile.Store
import ProbeWeave.Proofs.Profile.Fields

/-! # What stores hold

A store holds records of simple values by the names of profiles. The same store can be written in several
ways, since a text may stand bare or between quotes and a map between brackets; what is found in a store
and what is put into it depends on what it holds only.
-/

namespace ProbeWeave

open Yaml

namespace Store

/-- Whether a node stands for a name: a text, bare or between quotes. -/
inductive Names : Node → String → Prop where
  | text {style : Style} (name : String) (line : style ≠ .literal ∧ style ≠ .folded) :
    Names (.scalar (.text name style)) name

/-- Whether a node stands for a simple value. -/
inductive Stands : Node → Value → Prop where
  | null : Stands (.scalar .null) .null
  | bool (b : Bool) : Stands (.scalar (.bool b)) (.bool b)
  | int (n : Int) : Stands (.scalar (.int n (toString n))) (.int n)
  | text {node : Node} {s : String} (names : Names node s) : Stands node (.text s)

section Maps

variable {α : Type} {R : Node → α → Prop} {node key : Node} {brackets : Bool} {name other : String}
  {v : α} {d : Dictionary String α} {entries : List (Node × Node)} {named : List (String × α)}

/-- Whether the key of an entry stands for a name and its node for what is there. -/
def Pairs (R : Node → α → Prop) (entry : Node × Node) (pair : String × α) : Prop :=
  Names entry.1 pair.1 ∧ R entry.2 pair.2

/-- Whether a node is a map from names, each with a node that stands for what is there. -/
inductive Maps (R : Node → α → Prop) : Node → Dictionary String α → Prop where
  | map {brackets : Bool} {entries : List (Node × Node)} {d : Dictionary String α} (distinct : d.Distinct)
    (pairs : List.Forall₂ (Pairs R) entries d.entries) : Maps R (.map brackets entries) d

theorem Names.isName (names : Names key other) : isName name key = (name == other) := by
  obtain ⟨-, -⟩ := names
  exact Bool.beq_comm

theorem lookup_pairs (pairs : List.Forall₂ (Pairs R) entries named) (name : String) :
    match named.lookup name with
    | some v => ∃ key node, entries.find? (fun entry => isName name entry.1) = some (key, node) ∧ R node v
    | none => entries.find? (fun entry => isName name entry.1) = none := by
  induction pairs with
  | nil => rfl
  | @cons entry pair entries named first rest ih =>
    obtain ⟨key, node⟩ := entry
    obtain ⟨other, v⟩ := pair
    obtain ⟨names, here⟩ := first
    rw [List.lookup_cons, List.find?_cons, names.isName]
    by_cases same : (name == other) = true
    · simp only [same]
      exact ⟨key, node, rfl, here⟩
    · simp only [Bool.not_eq_true] at same
      simp only [same]
      exact ih

/-- A map is found to have what it stands for. -/
theorem Maps.find? (maps : Maps R node d) (name : String) :
    match d.get? name with
    | some v => ∃ there, find? node name = .ok (some there) ∧ R there v
    | none => find? node name = .ok none := by
  obtain ⟨distinct, pairs⟩ := maps
  have found := lookup_pairs pairs name
  rw [Dictionary.get?]
  split at found
  · obtain ⟨key, there, found, stands⟩ := found
    exact ⟨there, congrArg (Except.ok ∘ Option.map Prod.snd) found, stands⟩
  · exact congrArg (Except.ok ∘ Option.map Prod.snd) found

theorem pairs_putEntry (pairs : List.Forall₂ (Pairs R) entries named) (name : String) (stands : R node v) :
    List.Forall₂ (Pairs R) (putEntry name node entries) (Dictionary.putIn name v named) := by
  have text : Names (.ofValue (.text name)) name := .text name (by decide)
  induction pairs with
  | nil => exact .cons ⟨text, stands⟩ .nil
  | @cons entry pair entries named first rest ih =>
    obtain ⟨key, old⟩ := entry
    obtain ⟨other, there⟩ := pair
    rw [putEntry, Dictionary.putIn, first.1.isName]
    split
    · exact .cons ⟨first.1, stands⟩ rest
    · exact .cons first ih

/-- What is put into a map is put into what it stands for. -/
theorem Maps.putEntry (maps : Maps R (.map brackets entries) d) (name : String) (stands : R node v) :
    Maps R (.map brackets (putEntry name node entries)) (d.put name v) := by
  obtain ⟨distinct, pairs⟩ := maps
  exact .map (distinct.put name v) (pairs_putEntry pairs name stands)

end Maps

variable {node : Node} {v : Value} {r : Record} {p : Profile} {d : Dictionary String Record}

theorem Stands.value (stands : Stands node v) : node.value = v := by
  cases stands with
  | null => rfl
  | bool b => rfl
  | int n => rfl
  | text names =>
    obtain ⟨-, -⟩ := names
    rfl

theorem stands_ofValue (simple : v.Simple) : Stands (.ofValue v) v := by
  cases simple with
  | null => exact .null
  | bool b => exact .bool b
  | int n => exact .int n
  | text s => exact .text (.text s (by decide))

/-- The node of a record stands for the record. -/
theorem maps_nodeOf (distinct : r.Distinct) (simple : ∀ v ∈ r.values, v.Simple) :
    Maps Stands (nodeOf r) r := by
  obtain ⟨entries⟩ := r
  refine .map distinct ?_
  clear distinct
  induction entries with
  | nil => exact .nil
  | cons entry rest ih =>
    obtain ⟨first, others⟩ := List.forall_mem_cons.mp simple
    exact .cons ⟨.text entry.1 (by decide), stands_ofValue first⟩ (ih others)

theorem filterMap_entryValues {setting? : Value × Value → Option (String × Value)}
    {entries : List (Node × Node)} {named : List (String × Value)}
    (text : ∀ name v, setting? (.text name, v) = some (name, v))
    (pairs : List.Forall₂ (Pairs Stands) entries named) :
    (Node.entryValues entries).filterMap setting? = named := by
  induction pairs with
  | nil => rfl
  | @cons entry pair entries named first rest ih =>
    obtain ⟨names, stands⟩ := first
    have key : entry.1.value = .text pair.1 := (Stands.text names).value
    rw [Node.entryValues, key, stands.value, List.filterMap_cons_some (text ..), ih]

/-- The settings among the entries of a map are what it stands for. -/
theorem recordOf_eq_ok (maps : Maps Stands node r) : recordOf node = .ok r := by
  obtain ⟨distinct, pairs⟩ := maps
  rename_i brackets entries
  rw [← distinct.ofList_entries]
  cases entries with
  | nil =>
    refine congrArg (Except.ok ∘ Dictionary.ofList) (filterMap_entryValues ?_ pairs)
    exact fun name v => rfl
  | cons entry entries =>
    refine congrArg (Except.ok ∘ Dictionary.ofList) (filterMap_entryValues ?_ pairs)
    exact fun name v => rfl

/-! ### The records of a store -/

/-- Whether a store holds records by the names of profiles; without a file it holds none. -/
inductive Holds : Option Node → Dictionary String Record → Prop where
  | absent : Holds none .empty
  | map {node : Node} {d : Dictionary String Record} (maps : Maps (Maps Stands) node d) :
    Holds (some node) d

variable {root : Option Node}

/-- A profile is read back from a store that holds its record. -/
theorem Holds.profile (holds : Holds root d) (normal : p.Normal) {name : String}
    (there : (d.get? name).getD Profile.blank.record = p.record) :
    ∃ found, profile root name = .ok found ∧ found.record = p.record := by
  cases holds with
  | absent => exact ⟨.blank, rfl, there⟩
  | map maps =>
    have found := maps.find? name
    split at found
    · rename_i r here
      obtain ⟨node, found, settings⟩ := found
      obtain rfl : r = p.record := by simpa [here] using there
      refine ⟨p, ?_, rfl⟩
      rw [profile]
      simp only [found, bind, Except.bind, profileOf, recordOf_eq_ok settings, Outcome.mapError_ok,
        Profile.ofRecord_record Node.kinds normal]
    · rename_i missing
      refine ⟨.blank, ?_, by simpa [missing] using there⟩
      rw [profile]
      simp only [found, bind, Except.bind, pure, Except.pure]

/-- A profile that is put into a store is held there, besides the others. -/
theorem Holds.put (holds : Holds root d) (p : Profile) (name : String) :
    ∃ node, put root name p.record = .ok node ∧ Maps (Maps Stands) node (d.put name p.record) := by
  have settings : Maps Stands (nodeOf p.record) p.record :=
    maps_nodeOf p.distinct_record fun v member => Profile.simple_of_mem_record member
  cases holds with
  | absent =>
    refine ⟨_, rfl, .map ?_ (.cons ⟨.text name (by decide), settings⟩ .nil)⟩
    exact List.nodup_cons.mpr ⟨List.not_mem_nil, List.nodup_nil⟩
  | map maps =>
    cases maps with
    | map distinct pairs => exact ⟨_, rfl, (Maps.map distinct pairs).putEntry name settings⟩

end Store

/-- Whether a format gives back every store that is written in it. A store is read with its line breaks
unified. -/
def StoreFormat.GivesBack (format : StoreFormat) : Prop :=
  ∀ node d, Store.Maps (Store.Maps Store.Stands) node d → ∃ node',
    format.read? (String.ofList (Text.unifyBreaks (format.write node).toList)) = some (some node') ∧
      Store.Maps (Store.Maps Store.Stands) node' d

/-! ### Spelling out stores

Any store can be given back by some format: it is enough to number all stores and to write as many marks.
The format here writes YAML, and marks only for a store that YAML would not give back.
-/

namespace StoreFormat

open Store

variable {node : Node} {v : Value}

/-- The code points of a text. -/
def points (s : String) : List Nat :=
  s.toList.map Char.toNat

/-- The text of code points. -/
def ofPoints (points : List Nat) : String :=
  String.ofList (points.map Char.ofNat)

theorem ofPoints_points (s : String) : ofPoints (points s) = s := by
  have chars : Char.ofNat ∘ Char.toNat = id := by
    funext c
    exact Char.ofNat_toNat c
  rw [ofPoints, points, List.map_map, chars, List.map_id, String.ofList_toList]

/-- What a simple value is known by. -/
abbrev ScalarCode := Option (Bool ⊕ Int ⊕ List Nat)

/-- What the value of a node is known by. -/
def scalarCode : Node → ScalarCode
  | .scalar (.bool b) => some (.inl b)
  | .scalar (.int n _) => some (.inr (.inl n))
  | .scalar (.text s _) => some (.inr (.inr (points s)))
  | _ => none

/-- A node of the value that is known by a code. -/
def ofScalarCode : ScalarCode → Node
  | none => .scalar .null
  | some (.inl b) => .scalar (.bool b)
  | some (.inr (.inl n)) => .scalar (.int n (toString n))
  | some (.inr (.inr s)) => .scalar (.text (ofPoints s) .plain)

/-- What a map is known by, given what its nodes are. -/
def mapCode {κ : Type} (code : Node → κ) : Node → List (List Nat × κ)
  | .map _ entries => entries.map fun entry => (points entry.1.value.shown, code entry.2)
  | _ => []

/-- A node of the map that is known by a code. -/
def ofMapCode {κ : Type} (node : κ → Node) (entries : List (List Nat × κ)) : Node :=
  .map false (entries.map fun entry => (.scalar (.text (ofPoints entry.1) .plain), node entry.2))

theorem stands_ofScalarCode (stands : Stands node v) :
    Stands (ofScalarCode (scalarCode node)) v := by
  cases stands with
  | null => exact .null
  | bool b => exact .bool b
  | int n => exact .int n
  | text names =>
    obtain ⟨-, -⟩ := names
    rw [scalarCode, ofScalarCode, ofPoints_points]
    exact .text (.text _ (by decide))

theorem maps_ofMapCode {κ α : Type} {R : Node → α → Prop} {code : Node → κ} {ofCode : κ → Node}
    (back : ∀ {node v}, R node v → R (ofCode (code node)) v) {node : Node} {d : Dictionary String α}
    (maps : Maps R node d) : Maps R (ofMapCode ofCode (mapCode code node)) d := by
  obtain ⟨distinct, pairs⟩ := maps
  refine .map distinct ?_
  rw [mapCode, List.map_map, List.forall₂_map_left_iff]
  refine pairs.imp fun entry pair ⟨names, stands⟩ => ⟨?_, back stands⟩
  have shown : entry.1.value.shown = pair.1 := by
    rw [(Stands.text names).value]
    rfl
  dsimp only [Function.comp]
  rw [shown, ofPoints_points]
  exact .text pair.1 (by decide)

/-- A store in marks. -/
def spelled (node : Node) : String :=
  String.ofList ('%' :: List.replicate (Encodable.encode (mapCode (mapCode scalarCode) node)) 'x')

/-- The store that is given in marks. -/
def ofSpelled? (marks : List Char) : Option (Option Node) :=
  (Encodable.decode marks.length).map fun code => some (ofMapCode (ofMapCode ofScalarCode) code)

/-- Whether YAML gives a store back. -/
def Survives (node : Node) : Prop :=
  let written := Text.unifyBreaks (Yaml.write node).toList
  written.head? ≠ some '%' ∧ ∃ node', Yaml.read? (String.ofList written) = some (some node') ∧
    ∀ d, Maps (Maps Stands) node d → Maps (Maps Stands) node' d

noncomputable instance (node : Node) : Decidable (Survives node) :=
  Classical.propDecidable _

/-- YAML, but stores that it does not give back are spelled out. -/
noncomputable def yamlOrSpelled : StoreFormat where
  read? text :=
    match text.toList with
    | '%' :: marks => ofSpelled? marks
    | _ => Yaml.read? text
  write node := if Survives node then Yaml.write node else spelled node

/-- What cannot be given back in YAML is given back in marks. -/
theorem givesBack_yamlOrSpelled : yamlOrSpelled.GivesBack := by
  intro node d maps
  by_cases survives : Survives node
  · obtain ⟨bare, node', read, back⟩ := survives
    refine ⟨node', ?_, back d maps⟩
    rw [yamlOrSpelled]
    dsimp only
    rw [if_pos ⟨bare, node', read, back⟩, String.toList_ofList]
    split
    · rename_i marks same
      exact absurd (congrArg List.head? same) bare
    · exact read
  · refine ⟨ofMapCode (ofMapCode ofScalarCode) (mapCode (mapCode scalarCode) node), ?_,
      maps_ofMapCode (maps_ofMapCode stands_ofScalarCode) maps⟩
    rw [yamlOrSpelled]
    dsimp only
    rw [if_neg survives, spelled, String.toList_ofList, Text.unifyBreaks_of_not_mem (by simp), String.toList_ofList]
    show ofSpelled? _ = _
    rw [ofSpelled?, List.length_replicate, Encodable.encodek]
    rfl

end StoreFormat

end ProbeWeave
