import IcebergCxx.EqualityDelete

/-!
# What the equality deletes remember

Every implementation keeps the greatest layer for each key it encodes. The general key
determines the row; the packed key determines the row together with the bytes of its null
slots; the flag of the single column forgets the layer.
-/

namespace IcebergCxx.Proofs

open Lib

/-! ### Rows -/

/-- Two slots are equal as SQL values, with `NULL` equal to `NULL`. -/
def SameSlot (a b : KeySlot) : Prop := a.isNull = b.isNull ∧ (a.isNull = false → a.view = b.view)

def rowSlots (arrays : List KeyArray) (row : Nat) : List KeySlot := arrays.map (fun array => array.slot row)

/-- Two rows are equal on every key column. -/
def SameRow (arrays : List KeyArray) (row : Nat) (arrays' : List KeyArray) (row' : Nat) : Prop :=
  List.Forall₂ SameSlot (rowSlots arrays row) (rowSlots arrays' row')

/-- The rows that calls of `Add` pass, each with its layer. -/
def addedRows (calls : List AddCall) : List (List KeyArray × Nat × Int) :=
  calls.flatMap (fun call => (List.range call.rowsCount).map (fun row => (call.arrays, row, call.deleteLayer)))

/-- Some added row equals the queried one and was added with a high enough layer. -/
def EqualityDeleted (calls : List AddCall) (arrays : List KeyArray) (row : Nat) (dataLayer : Int) : Prop :=
  ∃ added ∈ addedRows calls, SameRow added.1 added.2.1 arrays row ∧ dataLayer ≤ added.2.2

def ConformsTo (types : List KeyType) (arrays : List KeyArray) : Prop := arrays.map KeyArray.type = types

lemma exists_addedRows_cons {call : AddCall} {calls : List AddCall} {P : List KeyArray × Nat × Int → Prop} :
    (∃ added ∈ addedRows (call :: calls), P added) ↔
      (∃ row ∈ List.range call.rowsCount, P (call.arrays, row, call.deleteLayer)) ∨ ∃ added ∈ addedRows calls, P added := by
  simp only [addedRows, List.flatMap_cons, List.mem_append, or_and_right, exists_or, List.mem_map]
  constructor
  · rintro (⟨added, ⟨row, hrow, rfl⟩, h⟩ | h)
    · exact .inl ⟨row, hrow, h⟩
    · exact .inr h
  · rintro (⟨row, hrow, h⟩ | h)
    · exact .inl ⟨_, ⟨row, hrow, rfl⟩, h⟩
    · exact .inr h

lemma arrays_of_mem_addedRows {calls : List AddCall} {added : List KeyArray × Nat × Int}
    (h : added ∈ addedRows calls) : ∃ call ∈ calls, call.arrays = added.1 := by
  obtain ⟨call, hcall, h⟩ := List.mem_flatMap.mp h
  obtain ⟨row, -, rfl⟩ := List.mem_map.mp h
  exact ⟨call, hcall, rfl⟩

lemma slot_fits (array : KeyArray) (row : Nat) {width : Nat} (hw : array.type.byteWidth = some width) :
    (array.getView row).length = width := by
  unfold KeyArray.getView KeyArray.slot
  cases h : array.slots[row]? with
  | none => simp [hw]
  | some slot => exact array.fits slot (List.mem_of_getElem? h) width hw

lemma layerDeletes_iff {K : Type} [LinearOrder K] {m : OrdMap K Int} {k : K} {dataLayer : Int} :
    layerDeletes (m.find? k) dataLayer = true ↔ m.Reaches k dataLayer := by
  unfold layerDeletes OrdMap.Reaches
  cases m.find? k with
  | none => simp
  | some layer => simp

/-! ### The general key -/

def writtenRow (arrays : List KeyArray) (row : Nat) : Bytes :=
  (arrays.filter (fun array => !array.isNull row)).flatMap (fun array => writeToData array row)

lemma length_writeToData (array : KeyArray) (row : Nat) : (writeToData array row).length = getWidth array row := by
  unfold writeToData getWidth
  cases hw : array.type.byteWidth with
  | none => simp
  | some width => exact slot_fits array row hw

lemma length_keyData (arrays : List KeyArray) (row : Nat) : (keyData arrays row).length = keySize arrays row := by
  simp [keyData, keySize, List.length_flatMap, length_writeToData]

lemma genericDeleteKey_eq {arrays : List KeyArray} {row : Nat} (h : keySize arrays row < 2 ^ 16) :
    genericDeleteKey arrays row = keyData arrays row := by
  rw [genericDeleteKey, Nat.mod_eq_of_lt h, ← length_keyData, List.take_length]

/-- A written value can be read back from the front of the data. -/
lemma writeToData_front {a b : KeyArray} {row row' : Nat} {r r' : Bytes} (ht : a.type = b.type)
    (ha : (a.getView row).length < 2 ^ 32) (hb : (b.getView row').length < 2 ^ 32)
    (h : writeToData a row ++ r = writeToData b row' ++ r') : a.getView row = b.getView row' ∧ r = r' := by
  unfold writeToData at h
  cases hw : a.type.byteWidth with
  | some width =>
    rw [← ht, hw] at h
    exact List.append_inj h ((slot_fits a row hw).trans (slot_fits b row' (ht ▸ hw)).symm)
  | none =>
    rw [← ht, hw] at h
    simp only [List.append_assoc] at h
    obtain ⟨hlen, h⟩ := List.append_inj h (by simp)
    have hlength := leBytes_inj (by omega) (by omega) hlen
    exact List.append_inj h hlength

lemma writtenRow_cons (array : KeyArray) (arrays : List KeyArray) (row : Nat) :
    writtenRow (array :: arrays) row = (if array.isNull row then [] else writeToData array row) ++ writtenRow arrays row := by
  unfold writtenRow
  cases h : array.isNull row <;> simp [h]

/-- Written rows with the same columns and null slots are told apart by their fronts. -/
lemma sameRow_of_writtenRow {arrays arrays' : List KeyArray} {row row' : Nat} {r r' : Bytes}
    (hconf : arrays.map KeyArray.type = arrays'.map KeyArray.type)
    (hnull : arrays.map (fun array => array.isNull row) = arrays'.map (fun array => array.isNull row'))
    (hview : ∀ array ∈ arrays, array.isNull row = false → (array.getView row).length < 2 ^ 32)
    (hview' : ∀ array ∈ arrays', array.isNull row' = false → (array.getView row').length < 2 ^ 32)
    (h : writtenRow arrays row ++ r = writtenRow arrays' row' ++ r') : SameRow arrays row arrays' row' := by
  induction arrays generalizing arrays' with
  | nil =>
    rw [List.map_nil, eq_comm, List.map_eq_nil_iff] at hconf
    subst hconf
    exact .nil
  | cons a arrays ih =>
    cases arrays' with
    | nil => simp at hconf
    | cons b arrays' =>
      obtain ⟨ht, hconf⟩ := List.cons.inj hconf
      obtain ⟨hn, hnull⟩ := List.cons.inj hnull
      simp only at hn
      have htail := ih hconf hnull (fun c hc => hview c (List.mem_cons_of_mem _ hc))
        (fun c hc => hview' c (List.mem_cons_of_mem _ hc))
      rw [writtenRow_cons, writtenRow_cons, ← hn, List.append_assoc, List.append_assoc] at h
      cases hnl : a.isNull row with
      | true =>
        rw [hnl] at h
        refine .cons ⟨hn, fun hf => ?_⟩ (htail h)
        exact absurd (hnl.symm.trans hf) (by decide)
      | false =>
        rw [hnl] at h
        obtain ⟨hslot, hrest⟩ := writeToData_front ht (hview a List.mem_cons_self hnl)
          (hview' b List.mem_cons_self (hn ▸ hnl)) h
        exact .cons ⟨hn, fun _ => hslot⟩ (htail hrest)

lemma writtenRow_of_sameRow {arrays arrays' : List KeyArray} {row row' : Nat}
    (hconf : arrays.map KeyArray.type = arrays'.map KeyArray.type) (h : SameRow arrays row arrays' row') :
    writtenRow arrays row = writtenRow arrays' row' := by
  induction arrays generalizing arrays' with
  | nil =>
    rw [List.map_nil, eq_comm, List.map_eq_nil_iff] at hconf
    rw [hconf]
    rfl
  | cons a arrays ih =>
    cases arrays' with
    | nil => simp at hconf
    | cons b arrays' =>
      obtain ⟨ht, hconf⟩ := List.cons.inj hconf
      obtain ⟨⟨hn, hview⟩, hrest⟩ := List.forall₂_cons.mp h
      have hn' : a.isNull row = b.isNull row' := hn
      have hhead : (if a.isNull row then [] else writeToData a row) =
          if b.isNull row' then [] else writeToData b row' := by
        rw [← hn']
        cases hnl : a.isNull row with
        | true => rfl
        | false =>
          have hv : a.getView row = b.getView row' := hview hnl
          simp [writeToData, ← ht, hv]
      rw [writtenRow_cons, writtenRow_cons, hhead, ih hconf hrest]

lemma map_eq_of_getD {α : Type} {l l' : List KeyArray} (f g : KeyArray → α) (hlen : l.length = l'.length)
    (h : ∀ i < l.length, f (l.getD i default) = g (l'.getD i default)) : l.map f = l'.map g := by
  apply List.ext_getElem (by simpa using hlen)
  intro i hi hi'
  have := h i (by simpa using hi)
  simp only [List.length_map] at hi hi'
  simpa [List.getD_eq_getElem?_getD, List.getElem?_eq_getElem hi, List.getElem?_eq_getElem hi'] using this

lemma getD_eq_of_map {α : Type} {l l' : List KeyArray} {f g : KeyArray → α} (h : l.map f = l'.map g) :
    ∀ i < l.length, f (l.getD i default) = g (l'.getD i default) := by
  intro i hi
  have hlen : l.length = l'.length := by simpa using congrArg List.length h
  have hget := congrArg (fun m => m[i]?) h
  simpa [List.getD_eq_getElem?_getD, List.getElem?_eq_getElem hi, List.getElem?_eq_getElem (hlen ▸ hi)] using hget

lemma length_getView_le_getWidth (array : KeyArray) (row : Nat) : (array.getView row).length ≤ getWidth array row := by
  unfold getWidth
  cases hw : array.type.byteWidth with
  | none => exact Nat.le_add_left _ _
  | some width => exact (slot_fits array row hw).le

lemma getWidth_le_keySize {arrays : List KeyArray} {row : Nat} {array : KeyArray} (h : array ∈ arrays)
    (hn : array.isNull row = false) : getWidth array row ≤ keySize arrays row := by
  have hmem : getWidth array row ∈
      (arrays.filter (fun array => !array.isNull row)).map (fun array => getWidth array row) :=
    List.mem_map_of_mem (List.mem_filter.mpr ⟨h, by simp [hn]⟩)
  have := List.le_sum_of_mem hmem
  unfold keySize
  omega

lemma sameRow_nulls {arrays arrays' : List KeyArray} {row row' : Nat} (h : SameRow arrays row arrays' row') :
    arrays.map (fun array => array.isNull row) = arrays'.map (fun array => array.isNull row') := by
  have hrel := h.imp (fun {a b} hab => hab.1)
  rw [rowSlots, rowSlots, List.forall₂_map_left_iff, List.forall₂_map_right_iff] at hrel
  exact List.forall₂_eq_eq_eq ▸ List.forall₂_map_left_iff.mpr (List.forall₂_map_right_iff.mpr hrel)

lemma nullBitmask_eq_iff {arrays arrays' : List KeyArray} {row row' : Nat} (hlen : arrays.length = arrays'.length) :
    nullBitmask arrays row = nullBitmask arrays' row' ↔
      arrays.map (fun array => array.isNull row) = arrays'.map (fun array => array.isNull row') := by
  unfold nullBitmask
  rw [← hlen, bitmask_eq_iff]
  constructor
  · intro h
    exact map_eq_of_getD _ _ hlen (fun i hi => h i (List.mem_range.mpr hi))
  · intro h i hi
    exact getD_eq_of_map h i (List.mem_range.mp hi)

lemma nullBitmask_lt {arrays : List KeyArray} {row : Nat} (h : arrays.length ≤ 64) : nullBitmask arrays row < 256 ^ 8 := by
  refine (bitmask_lt (fun id hid => List.mem_range.mp hid)).trans_le ?_
  exact (Nat.pow_le_pow_right (by norm_num) h).trans (by norm_num)

/-- Serialized rows of the same columns are told apart by their fronts. -/
lemma sameRow_of_keyData {arrays arrays' : List KeyArray} {row row' : Nat} {r r' : Bytes}
    (hconf : arrays.map KeyArray.type = arrays'.map KeyArray.type) (hcount : arrays.length ≤ 64)
    (hview : ∀ array ∈ arrays, array.isNull row = false → (array.getView row).length < 2 ^ 32)
    (hview' : ∀ array ∈ arrays', array.isNull row' = false → (array.getView row').length < 2 ^ 32)
    (h : keyData arrays row ++ r = keyData arrays' row' ++ r') : SameRow arrays row arrays' row' := by
  have hlen : arrays.length = arrays'.length := by simpa using congrArg List.length hconf
  rw [keyData, keyData, List.append_assoc, List.append_assoc] at h
  obtain ⟨hmask, h⟩ := List.append_inj h (by simp)
  have hnull := (nullBitmask_eq_iff hlen).mp (leBytes_inj (nullBitmask_lt hcount) (nullBitmask_lt (hlen ▸ hcount)) hmask)
  exact sameRow_of_writtenRow hconf hnull hview hview' h

lemma keyData_of_sameRow {arrays arrays' : List KeyArray} {row row' : Nat}
    (hconf : arrays.map KeyArray.type = arrays'.map KeyArray.type) (h : SameRow arrays row arrays' row') :
    keyData arrays row = keyData arrays' row' := by
  have hlen : arrays.length = arrays'.length := by simpa using congrArg List.length hconf
  have hwritten := writtenRow_of_sameRow hconf h
  rw [writtenRow, writtenRow] at hwritten
  rw [keyData, keyData, hwritten, (nullBitmask_eq_iff hlen).mpr (sameRow_nulls h)]

lemma genericDeleteKey_of_sameRow {arrays arrays' : List KeyArray} {row row' : Nat}
    (hconf : arrays.map KeyArray.type = arrays'.map KeyArray.type) (h : SameRow arrays row arrays' row') :
    genericDeleteKey arrays row = genericDeleteKey arrays' row' := by
  rw [genericDeleteKey, genericDeleteKey, ← length_keyData, ← length_keyData, keyData_of_sameRow hconf h]

/-- The general key tells exactly the equal rows apart from the others. -/
lemma genericDeleteKey_iff {arrays arrays' : List KeyArray} {row row' : Nat}
    (hconf : arrays.map KeyArray.type = arrays'.map KeyArray.type) (hcount : arrays.length ≤ 64)
    (hsize : keySize arrays row < 2 ^ 16) (hsize' : keySize arrays' row' < 2 ^ 16) :
    genericDeleteKey arrays row = genericDeleteKey arrays' row' ↔ SameRow arrays row arrays' row' := by
  have hview : ∀ {l : List KeyArray} {r : Nat}, keySize l r < 2 ^ 16 →
      ∀ array ∈ l, array.isNull r = false → (array.getView r).length < 2 ^ 32 := by
    intro l r hl array harray hn
    have h1 := length_getView_le_getWidth array r
    have h2 := getWidth_le_keySize harray hn
    omega
  constructor
  · intro h
    rw [genericDeleteKey_eq hsize, genericDeleteKey_eq hsize'] at h
    exact sameRow_of_keyData hconf hcount (hview hsize) (hview hsize') (congrArg (· ++ []) h)
  · exact genericDeleteKey_of_sameRow hconf

/-- `Add` of the general implementation, over all calls. -/
lemma generic_addAll {calls : List AddCall} {del : GenericEqualityDelete} {result : EqualityDelete}
    (h : (EqualityDelete.generic del).addAll calls = .ok result) :
    ∃ final : GenericEqualityDelete, result = .generic final ∧ (∀ call ∈ calls, call.arrays.length ≤ 64) ∧
      ∀ k x, final.values.Reaches k x ↔
        del.values.Reaches k x ∨ ∃ added ∈ addedRows calls, genericDeleteKey added.1 added.2.1 = k ∧ x ≤ added.2.2 := by
  induction calls generalizing del with
  | nil =>
    obtain rfl := Except.ok.inj h
    exact ⟨del, rfl, fun call hcall => absurd hcall List.not_mem_nil, by simp [addedRows]⟩
  | cons call calls ih =>
    rw [EqualityDelete.addAll, List.foldlM_cons] at h
    obtain ⟨next, h1, h⟩ := bind_ok h
    rw [EqualityDelete.add, GenericEqualityDelete.add] at h1
    by_cases hcount : call.arrays.length ≤ 64
    · simp only [hcount, decide_true, ensure_true, ok_bind, Except.map, Except.ok.injEq] at h1
      subst h1
      obtain ⟨final, rfl, hcounts, hreach⟩ := ih h
      refine ⟨final, rfl, ?_, ?_⟩
      · intro c hc
        rcases List.mem_cons.mp hc with rfl | hc
        · exact hcount
        · exact hcounts c hc
      · intro k x
        rw [hreach, OrdMap.reaches_foldl_updateMax, exists_addedRows_cons, or_assoc]
    · simp [hcount, ensure, Except.map] at h1

/-! ### One column -/

lemma oneColumn_foldl (array : KeyArray) (layer : Int) (rows : List Nat) (del : SpecializedDeleteOneColumn) :
    let final := rows.foldl (SpecializedDeleteOneColumn.addRow array layer) del
    final.type = del.type ∧
    (final.containsNull = true ↔ del.containsNull = true ∨ ∃ row ∈ rows, array.isNull row = true) ∧
    ∀ k x, final.values.Reaches k x ↔ del.values.Reaches k x ∨
      ∃ row ∈ rows, array.isNull row = false ∧ array.getView row = k ∧ x ≤ layer := by
  induction rows generalizing del with
  | nil => simp
  | cons row rows ih =>
    obtain ⟨h1, h2, h3⟩ := ih (SpecializedDeleteOneColumn.addRow array layer del row)
    simp only [List.foldl_cons]
    refine ⟨?_, ?_, ?_⟩
    · rw [h1]
      unfold SpecializedDeleteOneColumn.addRow
      split_ifs <;> rfl
    · rw [h2]
      unfold SpecializedDeleteOneColumn.addRow
      split_ifs with hn
      · simp [hn]
      · simp [hn]
    · intro k x
      rw [h3]
      unfold SpecializedDeleteOneColumn.addRow
      split_ifs with hn
      · simp [hn]
      · simp [hn, OrdMap.reaches_updateMax, or_assoc]

/-- `Add` of the one-column implementation, over all calls. -/
lemma oneColumn_addAll {calls : List AddCall} {del : SpecializedDeleteOneColumn} {result : EqualityDelete}
    (h : (EqualityDelete.oneColumn del).addAll calls = .ok result) :
    ∃ final : SpecializedDeleteOneColumn, result = .oneColumn final ∧
      (final.containsNull = true ↔ del.containsNull = true ∨
        ∃ added ∈ addedRows calls, (added.1.getD 0 default).isNull added.2.1 = true) ∧
      ∀ k x, final.values.Reaches k x ↔ del.values.Reaches k x ∨
        ∃ added ∈ addedRows calls, (added.1.getD 0 default).isNull added.2.1 = false ∧
          (added.1.getD 0 default).getView added.2.1 = k ∧ x ≤ added.2.2 := by
  induction calls generalizing del with
  | nil =>
    obtain rfl := Except.ok.inj h
    exact ⟨del, rfl, by simp [addedRows], by simp [addedRows]⟩
  | cons call calls ih =>
    rw [EqualityDelete.addAll, List.foldlM_cons] at h
    obtain ⟨next, h1, h⟩ := bind_ok h
    simp only [EqualityDelete.add] at h1
    unfold SpecializedDeleteOneColumn.add at h1
    split at h1
    · rename_i array harrays
      split_ifs at h1 with ht
      · simp [Except.map] at h1
      · simp only [Except.map, Except.ok.injEq] at h1
        subst h1
        obtain ⟨-, hnull, hvalues⟩ := oneColumn_foldl array call.deleteLayer (List.range call.rowsCount) del
        obtain ⟨final, rfl, h2, h3⟩ := ih h
        refine ⟨final, rfl, ?_, ?_⟩
        · rw [h2, hnull, exists_addedRows_cons, harrays, or_assoc]
          rfl
        · intro k x
          rw [h3, hvalues, exists_addedRows_cons, harrays, or_assoc]
          rfl
    · simp [Except.map] at h1

end IcebergCxx.Proofs
