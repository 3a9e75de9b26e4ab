/-!
# Dictionaries that keep their order

A dictionary is a list of keys with their values. A key keeps the place at which it was first put
in, also when its value is replaced.
-/

namespace ProbeWeave

/-- Keys with values, in the order in which the keys were put in. -/
structure Dictionary (κ α : Type) where
  entries : List (κ × α)
  deriving Repr

namespace Dictionary

variable {κ α : Type} [BEq κ]

instance : Inhabited (Dictionary κ α) := ⟨⟨[]⟩⟩

/-- The dictionary without keys. -/
def empty : Dictionary κ α := ⟨[]⟩

/-- The value of a key. -/
def get? (d : Dictionary κ α) (key : κ) : Option α :=
  d.entries.lookup key

/-- Whether a key has a value. -/
def contains (d : Dictionary κ α) (key : κ) : Bool :=
  (d.get? key).isSome

/-- Replaces the value of a key in a list of entries, or appends the key. -/
def putIn (key : κ) (value : α) : List (κ × α) → List (κ × α)
  | [] => [(key, value)]
  | (k, v) :: rest => if key == k then (k, value) :: rest else (k, v) :: putIn key value rest

/-- Gives a key a value. -/
def put (d : Dictionary κ α) (key : κ) (value : α) : Dictionary κ α :=
  ⟨putIn key value d.entries⟩

/-- Gives a key a value if it has none. -/
def putNew (d : Dictionary κ α) (key : κ) (value : α) : Dictionary κ α :=
  if d.contains key then d else d.put key value

/-- The keys in their order. -/
def keys (d : Dictionary κ α) : List κ :=
  d.entries.map Prod.fst

/-- The values in the order of their keys. -/
def values (d : Dictionary κ α) : List α :=
  d.entries.map Prod.snd

/-- The dictionary that arises by putting in entries one after the other. -/
def ofList (entries : List (κ × α)) : Dictionary κ α :=
  entries.foldl (fun d (key, value) => d.put key value) empty

theorem lookup_putIn_self [LawfulBEq κ] (key : κ) (value : α) (entries : List (κ × α)) :
    (putIn key value entries).lookup key = some value := by
  induction entries with
  | nil => simp [putIn]
  | cons entry rest ih =>
    obtain ⟨k, v⟩ := entry
    simp only [putIn]
    split
    · simp_all
    · rename_i h
      simp [List.lookup_cons, h, ih]

theorem lookup_putIn_of_ne [LawfulBEq κ] {key other : κ} (h : other ≠ key) (value : α)
    (entries : List (κ × α)) : (putIn key value entries).lookup other = entries.lookup other := by
  have hne : (other == key) = false := beq_eq_false_iff_ne.2 h
  induction entries with
  | nil => simp [putIn, List.lookup_cons, hne]
  | cons entry rest ih =>
    obtain ⟨k, v⟩ := entry
    simp only [putIn]
    split
    · rename_i hk
      have := eq_of_beq hk
      subst this
      simp [List.lookup_cons, hne]
    · simp only [List.lookup_cons, ih]

/-- A key has the value that was put in last. -/
theorem get?_put_self [LawfulBEq κ] (d : Dictionary κ α) (key : κ) (value : α) :
    (d.put key value).get? key = some value :=
  lookup_putIn_self key value d.entries

/-- Putting in a key leaves the values of the others alone. -/
theorem get?_put_of_ne [LawfulBEq κ] {key other : κ} (h : other ≠ key) (d : Dictionary κ α)
    (value : α) : (d.put key value).get? other = d.get? other :=
  lookup_putIn_of_ne h value d.entries

/-- Putting in what a key has makes no difference. -/
theorem put_of_get? [LawfulBEq κ] {d : Dictionary κ α} {key : κ} {value : α}
    (found : d.get? key = some value) : d.put key value = d := by
  obtain ⟨entries⟩ := d
  simp only [get?, put, Dictionary.mk.injEq] at found ⊢
  induction entries with
  | nil => cases found
  | cons entry rest ih =>
    rw [List.lookup_cons] at found
    rw [putIn]
    split
    · rename_i same
      rw [same] at found
      cases found
      rfl
    · rename_i other
      rw [Bool.eq_false_iff.mpr other] at found
      rw [ih found]

theorem put_eq_self_iff [LawfulBEq κ] {d : Dictionary κ α} {key : κ} {value : α} :
    d.put key value = d ↔ d.get? key = some value :=
  ⟨fun same => same ▸ get?_put_self d key value, put_of_get?⟩

/-- Whatever is put in is a value, besides those that were there. -/
theorem mem_values_put {d : Dictionary κ α} {key : κ} {value v : α}
    (member : v ∈ (d.put key value).values) : v = value ∨ v ∈ d.values := by
  obtain ⟨entries⟩ := d
  simp only [put, values] at member ⊢
  induction entries with
  | nil => simpa [putIn] using member
  | cons entry rest ih =>
    rw [putIn] at member
    split at member
    · rw [List.map_cons, List.mem_cons] at member
      exact member.imp_right (List.mem_cons_of_mem _)
    · rcases List.mem_cons.mp member with rfl | member
      · exact .inr List.mem_cons_self
      · exact (ih member).imp_right (List.mem_cons_of_mem _)

theorem mem_values_ofList {entries : List (κ × α)} {v : α} (member : v ∈ (ofList entries).values) :
    v ∈ entries.map Prod.snd := by
  have folded : ∀ (entries : List (κ × α)) (d : Dictionary κ α),
      v ∈ (entries.foldl (fun d (key, value) => d.put key value) d).values →
        v ∈ d.values ∨ v ∈ entries.map Prod.snd := by
    intro entries
    induction entries with
    | nil => exact fun d member => .inl member
    | cons entry rest ih =>
      intro d member
      rcases ih _ member with member | member
      · rcases mem_values_put member with rfl | member
        · exact .inr List.mem_cons_self
        · exact .inl member
      · exact .inr (List.mem_cons_of_mem _ member)
  exact (folded entries empty member).resolve_left List.not_mem_nil

/-- A key has a value exactly if it is among the keys. -/
theorem mem_keys [LawfulBEq κ] {d : Dictionary κ α} {key : κ} : key ∈ d.keys ↔ (d.get? key).isSome = true := by
  obtain ⟨entries⟩ := d
  simp only [keys, get?]
  induction entries with
  | nil => simp
  | cons entry rest ih =>
    rw [List.map_cons, List.mem_cons, List.lookup_cons]
    by_cases same : key = entry.1
    · simp [same]
    · rw [beq_eq_false_iff_ne.mpr same, ih]
      simp [same]

/-- Whether every key stands in one entry. -/
def Distinct (d : Dictionary κ α) : Prop :=
  d.keys.Nodup

theorem mem_keys_put [LawfulBEq κ] {d : Dictionary κ α} {key k : κ} {value : α} :
    k ∈ (d.put key value).keys ↔ k = key ∨ k ∈ d.keys := by
  rw [mem_keys, mem_keys]
  by_cases same : k = key
  · simp [same, get?_put_self]
  · simp [get?_put_of_ne same, same]

theorem Distinct.put [LawfulBEq κ] {d : Dictionary κ α} (distinct : d.Distinct) (key : κ) (value : α) :
    (d.put key value).Distinct := by
  obtain ⟨entries⟩ := d
  unfold Distinct at distinct ⊢
  induction entries with
  | nil => simp [Dictionary.put, putIn, keys]
  | cons entry rest ih =>
    obtain ⟨new, others⟩ := List.nodup_cons.mp distinct
    have later := ih others
    simp only [Dictionary.put, putIn, keys] at later ⊢
    split
    · exact distinct
    · rename_i other
      refine List.nodup_cons.mpr ⟨fun member => ?_, later⟩
      rcases (mem_keys_put (d := ⟨rest⟩)).mp member with same | member
      · exact other (beq_iff_eq.mpr same.symm)
      · exact new member

/-- The entries of a dictionary with distinct keys are what its keys have. -/
theorem Distinct.get?_eq_some [LawfulBEq κ] {d : Dictionary κ α} (distinct : d.Distinct) {key : κ}
    {value : α} : d.get? key = some value ↔ (key, value) ∈ d.entries := by
  obtain ⟨entries⟩ := d
  unfold Distinct at distinct
  simp only [get?]
  induction entries with
  | nil => simp
  | cons entry rest ih =>
    obtain ⟨new, others⟩ := List.nodup_cons.mp distinct
    rw [List.lookup_cons, List.mem_cons]
    by_cases same : key = entry.1
    · subst same
      have absent : (entry.1, value) ∉ rest :=
        fun member => new (List.mem_map.mpr ⟨_, member, rfl⟩)
      simp [absent, Prod.ext_iff, eq_comm]
    · rw [beq_eq_false_iff_ne.mpr same, ih others]
      simp [same, Prod.ext_iff]

/-- A key that is put in anew stands last. -/
theorem putIn_of_not_mem [LawfulBEq κ] {key : κ} {entries : List (κ × α)}
    (absent : key ∉ entries.map Prod.fst) (value : α) :
    putIn key value entries = entries ++ [(key, value)] := by
  induction entries with
  | nil => rfl
  | cons entry rest ih =>
    obtain ⟨first, others⟩ := not_or.mp (mt List.mem_cons.mpr absent)
    rw [putIn, if_neg (by simpa using first), ih others, List.cons_append]

theorem foldl_put_of_nodup [LawfulBEq κ] (before : List (κ × α)) {rest : List (κ × α)}
    (new : ((before ++ rest).map Prod.fst).Nodup) :
    rest.foldl (fun d entry => d.put entry.1 entry.2) ⟨before⟩ = (⟨before ++ rest⟩ : Dictionary κ α) := by
  induction rest generalizing before with
  | nil => rw [List.foldl_nil, List.append_nil]
  | cons entry rest ih =>
    have absent : entry.1 ∉ before.map Prod.fst := by
      rw [List.map_append, List.nodup_append] at new
      intro member
      exact new.2.2 entry.1 member entry.1 (by simp) rfl
    rw [List.foldl_cons, put, putIn_of_not_mem absent, ih _ (by simpa using new), List.append_assoc]
    rfl

/-- Putting in the entries of a dictionary gives the dictionary. -/
theorem Distinct.ofList_entries [LawfulBEq κ] {d : Dictionary κ α} (distinct : d.Distinct) :
    ofList d.entries = d :=
  foldl_put_of_nodup [] distinct

end Dictionary

end ProbeWeave
