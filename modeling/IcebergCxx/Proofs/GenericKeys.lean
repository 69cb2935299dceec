import IcebergCxx.Proofs.EqualityDelete

/-!
# Which rows a general key identifies

A `SizedPtr` keeps 16 bits of the size of a key, and equality compares that many bytes. A shorter key is the key of the
equal rows alone: no serialized row continues another. Of a longer one some byte of a string is never compared, since
all that is not a string takes at most 520 bytes.
-/

namespace IcebergCxx.Proofs

open Lib

/-- The strings of a row are as short as the 32-bit offsets of an `arrow::StringArray` make them. -/
def ArrowStrings (arrays : List KeyArray) (row : Nat) : Prop := ∀ array ∈ arrays, (array.getView row).length < 2 ^ 31

/-- The key of a row is the key of every equal row, and of no other row with the same columns. -/
def KeyIdentifies (arrays : List KeyArray) (row : Nat) : Prop :=
  ∀ (arrays' : List KeyArray) (row' : Nat), arrays.map KeyArray.type = arrays'.map KeyArray.type →
    ArrowStrings arrays' row' →
    (genericDeleteKey arrays row = genericDeleteKey arrays' row' ↔ SameRow arrays row arrays' row')

lemma keyIdentifies_of_short {arrays : List KeyArray} {row : Nat} (hcount : arrays.length ≤ 64)
    (hstrings : ArrowStrings arrays row) (hsize : keySize arrays row < 2 ^ 16) : KeyIdentifies arrays row := by
  intro arrays' row' hconf hstrings'
  refine ⟨fun h => ?_, genericDeleteKey_of_sameRow hconf⟩
  rw [genericDeleteKey_eq hsize] at h
  have hfront : keyData arrays row ++ (keyData arrays' row').drop (keySize arrays' row' % 2 ^ 16) =
      keyData arrays' row' ++ [] := by
    rw [h, genericDeleteKey, List.take_append_drop, List.append_nil]
  exact sameRow_of_keyData hconf hcount (fun array ha _ => (hstrings array ha).trans (by norm_num))
    (fun array ha _ => (hstrings' array ha).trans (by norm_num)) hfront

/-! ### A row that differs at the end -/

/-- The array of one slot. -/
def rowOnly (array : KeyArray) (row : Nat) : KeyArray where
  type := array.type
  slots := [array.slot row]
  fits := by
    intro slot hslot width hwidth
    rw [List.mem_singleton.mp hslot]
    exact slot_fits array row hwidth

/-- The array of one string or byte string. -/
def viewOnly (array : KeyArray) (view : Bytes) (h : array.type.byteWidth = none) : KeyArray where
  type := array.type
  slots := [⟨false, view⟩]
  fits := fun _ _ width hwidth => absurd (h.symm.trans hwidth) (by simp)

lemma slot_rowOnly (array : KeyArray) (row : Nat) : (rowOnly array row).slot 0 = array.slot row := rfl

lemma writeToData_rowOnly (array : KeyArray) (row : Nat) : writeToData (rowOnly array row) 0 = writeToData array row := rfl

lemma writtenRow_rowOnly (arrays : List KeyArray) (row : Nat) :
    writtenRow (arrays.map (fun array => rowOnly array row)) 0 = writtenRow arrays row := by
  induction arrays with
  | nil => rfl
  | cons a arrays ih =>
    rw [List.map_cons, writtenRow_cons, writtenRow_cons, ih]
    rfl

lemma byteWidth_le {type : KeyType} {width : Nat} (h : type.byteWidth = some width) : width ≤ 8 := by
  cases type <;> cases h <;> decide

/-- A string of more than four written bytes can be exchanged for one that differs in its last byte. -/
lemma exists_otherView (array : KeyArray) (row : Nat) (h : 8 < (writeToData array row).length) :
    ∃ hstring : array.type.byteWidth = none, ∃ view : Bytes, view ≠ array.getView row ∧
      view.length = (array.getView row).length ∧
      ∀ n < (writeToData array row).length,
        (writeToData (viewOnly array view hstring) 0).take n = (writeToData array row).take n := by
  have hstring : array.type.byteWidth = none := by
    cases hw : array.type.byteWidth with
    | none => rfl
    | some width =>
      have hwidth := byteWidth_le hw
      rw [length_writeToData, getWidth, hw] at h
      exact absurd hwidth (not_le.mpr h)
  have hold : writeToData array row = leBytes 4 (array.getView row).length ++ array.getView row := by
    rw [writeToData, hstring]
  have hnew : ∀ view, writeToData (viewOnly array view hstring) 0 = leBytes 4 view.length ++ view := by
    intro view
    rw [writeToData]
    simp only [viewOnly, hstring]
    rfl
  have hne : array.getView row ≠ [] := by
    intro hnil
    rw [hold, hnil, List.append_nil, length_leBytes] at h
    omega
  obtain ⟨front, last, hview⟩ : ∃ front last, array.getView row = front ++ [last] :=
    ⟨_, _, (List.dropLast_append_getLast hne).symm⟩
  have hlen : (front ++ [last + 1]).length = (array.getView row).length := by
    rw [hview, List.length_append, List.length_append]
    rfl
  refine ⟨hstring, front ++ [last + 1], ?_, hlen, ?_⟩
  · rw [hview]
    intro heq
    have hlast : last + 1 = last := List.singleton_inj.mp (List.append_cancel_left heq)
    exact absurd hlast (by simp)
  · intro n hn
    rw [hold, hview, ← List.append_assoc, List.length_append, List.length_singleton] at hn
    have hfront : ∀ b, (leBytes 4 (front ++ [last]).length ++ (front ++ [b])).take n =
        (leBytes 4 (front ++ [last]).length ++ front).take n := by
      intro b
      rw [← List.append_assoc, List.take_append_of_le_length (by omega)]
    rw [hnew, hold, hlen, hview, hfront, hfront]

/-- Some other row with the same columns, null slots and sizes agrees with a row up to its last string. -/
lemma exists_otherRow (arrays : List KeyArray) (row : Nat) (h : 8 * arrays.length < (writtenRow arrays row).length) :
    ∃ arrays' : List KeyArray, arrays'.map KeyArray.type = arrays.map KeyArray.type ∧
      arrays'.map (fun array => array.isNull 0) = arrays.map (fun array => array.isNull row) ∧
      arrays'.map (fun array => (array.getView 0).length) = arrays.map (fun array => (array.getView row).length) ∧
      (writtenRow arrays' 0).length = (writtenRow arrays row).length ∧ ¬SameRow arrays row arrays' 0 ∧
      ∀ n, n + 8 * arrays.length < (writtenRow arrays row).length →
        (writtenRow arrays' 0).take n = (writtenRow arrays row).take n := by
  induction arrays with
  | nil => exact absurd h (by simp [writtenRow])
  | cons a arrays ih =>
    by_cases htail : 8 * arrays.length < (writtenRow arrays row).length
    · obtain ⟨arrays', htype, hnull, hview, hlen, hother, htake⟩ := ih htail
      have hhead : writtenRow (rowOnly a row :: arrays') 0 =
          (if a.isNull row then [] else writeToData a row) ++ writtenRow arrays' 0 := writtenRow_cons _ _ _
      refine ⟨rowOnly a row :: arrays', congrArg (a.type :: ·) htype, congrArg (a.isNull row :: ·) hnull,
        congrArg ((a.getView row).length :: ·) hview, ?_, ?_, ?_⟩
      · rw [hhead, writtenRow_cons, List.length_append, List.length_append, hlen]
      · exact fun hsame => hother (List.forall₂_cons.mp hsame).2
      · intro n hn
        rw [writtenRow_cons, List.length_append, List.length_cons] at hn
        rw [hhead, writtenRow_cons, List.take_append, List.take_append, htake]
        omega
    · rw [writtenRow_cons, List.length_append, List.length_cons] at h
      have hnull : a.isNull row = false := by
        by_contra hne
        rw [if_pos (by simpa using hne), List.length_nil] at h
        omega
      rw [hnull, if_neg (by simp)] at h
      obtain ⟨hstring, view, hne, hviewLen, htake⟩ := exists_otherView a row (by omega)
      have hwidth : (writeToData (viewOnly a view hstring) 0).length = (writeToData a row).length := by
        have hnew : getWidth (viewOnly a view hstring) 0 = 4 + view.length := by simp only [getWidth, viewOnly, hstring]; rfl
        rw [length_writeToData, length_writeToData, hnew, getWidth, hstring, hviewLen]
      have hhead : writtenRow (viewOnly a view hstring :: arrays.map (fun array => rowOnly array row)) 0 =
          writeToData (viewOnly a view hstring) 0 ++ writtenRow arrays row := by
        rw [writtenRow_cons, writtenRow_rowOnly]
        rfl
      have hold : writtenRow (a :: arrays) row = writeToData a row ++ writtenRow arrays row := by
        rw [writtenRow_cons, hnull]
        rfl
      refine ⟨viewOnly a view hstring :: arrays.map (fun array => rowOnly array row), ?_, ?_, ?_, ?_, ?_, ?_⟩
      · rw [List.map_cons, List.map_cons, List.map_map]
        rfl
      · rw [List.map_cons, List.map_cons, List.map_map, hnull]
        rfl
      · rw [List.map_cons, List.map_cons, List.map_map, ← hviewLen]
        rfl
      · rw [hhead, hold, List.length_append, List.length_append, hwidth]
      · exact fun hsame => hne ((List.forall₂_cons.mp hsame).1.2 hnull).symm
      · intro n hn
        rw [hold, List.length_append, List.length_cons] at hn
        rw [hhead, hold, List.take_append_of_le_length (by omega), List.take_append_of_le_length (by omega)]
        exact htake n (by omega)

/-- Within 64 columns, the general key of a row identifies it exactly when it is shorter than 2^16 bytes. -/
theorem keyIdentifies_iff {arrays : List KeyArray} {row : Nat} (hcount : arrays.length ≤ 64)
    (hstrings : ArrowStrings arrays row) : KeyIdentifies arrays row ↔ keySize arrays row < 2 ^ 16 := by
  refine ⟨fun h => ?_, keyIdentifies_of_short hcount hstrings⟩
  by_contra hlong
  have hsize : keySize arrays row = 8 + (writtenRow arrays row).length := by
    rw [← length_keyData, keyData, List.length_append, length_leBytes]
    rfl
  obtain ⟨arrays', htype, hnull, hview, hlen, hother, htake⟩ := exists_otherRow arrays row (by omega)
  have hcount' : arrays.length = arrays'.length := by simpa using (congrArg List.length htype).symm
  have hsize' : keySize arrays' 0 = keySize arrays row := by
    rw [hsize, ← hlen, ← length_keyData, keyData, List.length_append, length_leBytes]
    rfl
  have hstrings' : ArrowStrings arrays' 0 := by
    intro array harray
    have hmem : (array.getView 0).length ∈ arrays.map (fun array => (array.getView row).length) :=
      hview ▸ List.mem_map_of_mem harray
    obtain ⟨old, hold, heq⟩ := List.mem_map.mp hmem
    exact heq ▸ hstrings old hold
  have hmask : nullBitmask arrays' 0 = nullBitmask arrays row := (nullBitmask_eq_iff hcount'.symm).mpr hnull
  have hkey : genericDeleteKey arrays row = genericDeleteKey arrays' 0 := by
    have hdata : ∀ l r, keyData l r = leBytes 8 (nullBitmask l r) ++ writtenRow l r := fun _ _ => rfl
    rw [genericDeleteKey, genericDeleteKey, hsize', hdata, hdata, hmask, List.take_append, List.take_append, htake]
    rw [length_leBytes]
    omega
  exact hother ((h arrays' 0 htype.symm hstrings').mp hkey)

/-- A number beside NULL. -/
def numberAndNull : List KeyArray :=
  [⟨.int32, [⟨false, [7, 0, 0, 0]⟩], by decide⟩, ⟨.string, [⟨true, []⟩], fun _ _ _ h => absurd h (by simp [KeyType.byteWidth])⟩]

theorem numberAndNull_identified : KeyIdentifies numberAndNull 0 :=
  (keyIdentifies_iff (by decide) (by unfold ArrowStrings; decide)).mpr (by decide)

/-- Two rows of a string column, of 65524 letters each. -/
def longStrings : KeyArray where
  type := .string
  slots := [⟨false, List.replicate 65524 97⟩, ⟨false, List.replicate 65524 98⟩]
  fits := fun _ _ _ h => absurd h (by simp [KeyType.byteWidth])

lemma keySize_longStrings {row : Nat} (letter : Byte) (h : longStrings.slot row = ⟨false, List.replicate 65524 letter⟩) :
    keySize [longStrings] row = 2 ^ 16 := by
  have hnull : longStrings.isNull row = false := by rw [KeyArray.isNull, h]
  have hwidth : getWidth longStrings row = 4 + 65524 := by
    rw [getWidth, KeyArray.getView, h, List.length_replicate]
    rfl
  rw [keySize, List.filter_cons_of_pos (by rw [hnull]; rfl), List.filter_nil, List.map_singleton, List.sum_singleton, hwidth]
  norm_num

/-- Keys of 2^16 bytes are compared in no byte. -/
theorem longStrings_sameKey :
    genericDeleteKey [longStrings] 0 = genericDeleteKey [longStrings] 1 ∧ ¬SameRow [longStrings] 0 [longStrings] 1 := by
  have h0 : keySize [longStrings] 0 = 2 ^ 16 := keySize_longStrings 97 rfl
  have h1 : keySize [longStrings] 1 = 2 ^ 16 := keySize_longStrings 98 rfl
  refine ⟨by rw [genericDeleteKey, genericDeleteKey, h0, h1, Nat.mod_self, List.take_zero, List.take_zero], fun h => ?_⟩
  have hview : List.replicate 65524 (97 : Byte) = List.replicate 65524 98 := (List.forall₂_cons.mp h).1.2 rfl
  have hletter : (97 : Byte) = 98 := (List.replicate_inj.mp hview).2.resolve_left (by norm_num)
  exact absurd hletter (by decide)

end IcebergCxx.Proofs
