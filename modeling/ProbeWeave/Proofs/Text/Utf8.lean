import Mathlib.Data.List.Basic
import ProbeWeave.Text.Utf8

/-! # Texts survive their encoding

A text that is encoded and then decoded is the same text: every character is given back by its own bytes,
whatever follows them.
-/

namespace ProbeWeave.Text.Utf8

/-- The bytes of a code point. -/
def encoded (v : Nat) : List Nat :=
  if v ≤ 0x7f then [v]
  else if v ≤ 0x7ff then [v / 64 % 32 + 192, v % 64 + 128]
  else if v ≤ 0xffff then [v / 4096 % 16 + 224, v / 64 % 64 + 128, v % 64 + 128]
  else [v / 262144 % 8 + 240, v / 4096 % 64 + 128, v / 64 % 64 + 128, v % 64 + 128]

theorem map_utf8EncodeChar (c : Char) :
    (String.utf8EncodeChar c).map UInt8.toNat = encoded c.toNat := by
  have byte (n : Nat) (small : n < 256) : (UInt8.ofNat n).toNat = n := UInt8.toNat_ofNat_of_lt' small
  have value : c.val.toNat = c.toNat := rfl
  rw [String.utf8EncodeChar, encoded, value]
  split
  · rw [List.map_singleton, byte _ (by omega)]
  · split
    · rw [List.map_cons, List.map_singleton, byte _ (by omega), byte _ (by omega)]
    · split
      · rw [List.map_cons, List.map_cons, List.map_singleton, byte _ (by omega), byte _ (by omega),
          byte _ (by omega)]
      · rw [List.map_cons, List.map_cons, List.map_cons, List.map_singleton, byte _ (by omega),
          byte _ (by omega), byte _ (by omega), byte _ (by omega)]

/-- The code points of characters leave out the surrogates. -/
theorem toNat_cases (c : Char) : c.toNat < 0xd800 ∨ 0xdfff < c.toNat ∧ c.toNat < 0x110000 :=
  c.valid

/-- A byte that others follow begins the character that they make together. -/
theorem decodeFrom_cons {place n b following low high v : Nat} {bytes : List Nat} (large : 0x80 ≤ b)
    (shaped : shape b = some (following, low, high))
    (read : tails (lead b following) 1 following low high bytes = .ok v) :
    decodeFrom place (n + 1) (b :: bytes) =
      (decodeFrom (place + following + 1) n (bytes.drop following)).map (Char.ofNat v :: ·) := by
  rw [decodeFrom, if_neg (by omega), shaped]
  simp only [read]
  rfl

/-- A byte that goes on with a character adds its own six bits. -/
theorem tails_cons {value good n low high b : Nat} {rest : List Nat} (above : low ≤ b) (below : b ≤ high) :
    tails value good (n + 1) low high (b :: rest) =
      tails (value * 64 + b % 64) (good + 1) n 0x80 0xbf rest := by
  rw [tails, if_pos (by simp [above, below])]

/-- The first of three bytes bounds the second so that no shorter form and no surrogate can be meant. -/
theorem shape_of_three {v : Nat} (long : 0x7ff < v) (short : v ≤ 0xffff)
    (valid : v < 0xd800 ∨ 0xdfff < v ∧ v < 0x110000) :
    ∃ low high, shape (v / 4096 % 16 + 224) = some (2, low, high) ∧ low ≤ v / 64 % 64 + 128 ∧
      v / 64 % 64 + 128 ≤ high := by
  by_cases first : v / 4096 % 16 + 224 = 0xe0
  · exact ⟨0xa0, 0xbf, by rw [first]; rfl, by omega, by omega⟩
  · by_cases middle : v / 4096 % 16 + 224 = 0xed
    · exact ⟨0x80, 0x9f, by rw [middle]; rfl, by omega, by omega⟩
    · exact ⟨0x80, 0xbf, by grind [shape], by omega, by omega⟩

/-- The first of four bytes bounds the second so that no shorter form and nothing too large can be meant. -/
theorem shape_of_four {v : Nat} (long : 0xffff < v) (valid : v < 0xd800 ∨ 0xdfff < v ∧ v < 0x110000) :
    ∃ low high, shape (v / 262144 % 8 + 240) = some (3, low, high) ∧ low ≤ v / 4096 % 64 + 128 ∧
      v / 4096 % 64 + 128 ≤ high := by
  by_cases first : v / 262144 % 8 + 240 = 0xf0
  · exact ⟨0x90, 0xbf, by rw [first]; rfl, by omega, by omega⟩
  · by_cases last : v / 262144 % 8 + 240 = 0xf4
    · exact ⟨0x80, 0x8f, by rw [last]; rfl, by omega, by omega⟩
    · exact ⟨0x80, 0xbf, by grind [shape], by omega, by omega⟩

/-- The bytes of a character give it back, whatever follows them. -/
theorem decodeFrom_encoded (c : Char) (place n : Nat) (rest : List Nat) :
    ∃ behind, decodeFrom place (n + 1) (encoded c.toNat ++ rest) =
      (decodeFrom behind n rest).map (c :: ·) := by
  have same : Char.ofNat c.toNat = c := Char.ofNat_toNat c
  have valid := toNat_cases c
  generalize c.toNat = v at same valid ⊢
  subst same
  unfold encoded
  split
  · refine ⟨place + 1, ?_⟩
    rw [List.singleton_append, decodeFrom, if_pos (by omega)]
    rfl
  · split
    · have shaped : shape (v / 64 % 32 + 192) = some (1, 0x80, 0xbf) := by grind [shape]
      have bits : lead (v / 64 % 32 + 192) 1 = v / 64 := by grind [lead]
      refine ⟨_, decodeFrom_cons (by omega) shaped ?_⟩
      rw [bits]
      exact (tails_cons (by omega) (by omega)).trans (congrArg Except.ok (by omega))
    · split
      · obtain ⟨low, high, shaped, above, below⟩ := shape_of_three (by omega) (by omega) valid
        have bits : lead (v / 4096 % 16 + 224) 2 = v / 4096 := by grind [lead]
        refine ⟨_, decodeFrom_cons (by omega) shaped ?_⟩
        rw [bits]
        refine (tails_cons above below).trans ((tails_cons (by omega) (by omega)).trans ?_)
        exact congrArg Except.ok (by omega)
      · obtain ⟨low, high, shaped, above, below⟩ := shape_of_four (by omega) valid
        have bits : lead (v / 262144 % 8 + 240) 3 = v / 262144 := by grind [lead]
        refine ⟨_, decodeFrom_cons (by omega) shaped ?_⟩
        rw [bits]
        refine (tails_cons above below).trans ((tails_cons (by omega) (by omega)).trans ?_)
        refine (tails_cons (by omega) (by omega)).trans ?_
        exact congrArg Except.ok (by omega)

theorem decodeFrom_flatMap (cs : List Char) (place : Nat) {n : Nat} (enough : cs.length ≤ n) :
    decodeFrom place n (cs.flatMap fun c => encoded c.toNat) = .ok cs := by
  induction cs generalizing place n with
  | nil => cases n <;> rfl
  | cons c rest ih =>
    obtain ⟨n, rfl⟩ : ∃ m, n = m + 1 := ⟨n - 1, by rw [List.length_cons] at enough; omega⟩
    obtain ⟨behind, first⟩ := decodeFrom_encoded c place n (rest.flatMap fun c => encoded c.toNat)
    rw [List.flatMap_cons, first, ih behind (by simpa using enough)]
    rfl

/-- No character is without bytes. -/
theorem length_le_flatMap (cs : List Char) : cs.length ≤ (cs.flatMap fun c => encoded c.toNat).length := by
  induction cs with
  | nil => exact Nat.le_refl 0
  | cons c rest ih =>
    have nonempty : 1 ≤ (encoded c.toNat).length := by
      unfold encoded
      grind
    rw [List.flatMap_cons, List.length_append, List.length_cons]
    omega

/-- The bytes of an array one after the other. -/
theorem toList_eq_data (bytes : ByteArray) : bytes.toList = bytes.data.toList := by
  have loop (i : Nat) (r : List UInt8) :
      ByteArray.toList.loop bytes i r = r.reverse ++ bytes.data.toList.drop i := by
    induction left : bytes.size - i generalizing i r with
    | zero =>
      have size : bytes.data.toList.length = bytes.size := rfl
      rw [ByteArray.toList.loop, if_neg (by omega), List.drop_eq_nil_of_le (by omega), List.append_nil]
    | succ n ih =>
      have within : i < bytes.size := by omega
      have inside : i < bytes.data.toList.length := within
      have read : bytes.get! i = bytes.data.toList[i] := by
        rw [Array.getElem_toList]
        exact getElem!_pos bytes.data i inside
      rw [ByteArray.toList.loop, if_pos within, ih _ _ (by omega), List.reverse_cons, List.append_assoc,
        List.singleton_append, read, ← List.drop_eq_getElem_cons inside]
  rw [ByteArray.toList, loop]
  rfl

/-- A text that is encoded and decoded is the same text. -/
theorem decode_toUTF8 (s : String) : decode (s.toUTF8.toList.map UInt8.toNat) = .ok s := by
  have bytes : s.toUTF8.toList.map UInt8.toNat = s.toList.flatMap fun c => encoded c.toNat := by
    rw [toList_eq_data, String.toUTF8, ← String.utf8Encode_toList, List.utf8Encode,
      List.data_toByteArray, List.toList_toArray, List.map_flatMap]
    simp only [map_utf8EncodeChar]
  rw [decode, bytes, decodeFrom_flatMap _ 0 (length_le_flatMap s.toList)]
  exact congrArg Except.ok String.ofList_toList

end ProbeWeave.Text.Utf8
