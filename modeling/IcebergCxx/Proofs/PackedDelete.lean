import IcebergCxx.Proofs.EqualityDelete

/-!
# The packed equality delete

The packed number holds the bytes of every column, those of null slots too, so the packed
key and the null mask determine the slots of a row, and nothing less.
-/

namespace IcebergCxx.Proofs

open Lib SpecializedDeleteMultipleColumn

/-- How `MakeEqualityDelete` sets up a packed delete for some types. -/
structure PackedFor (types : List KeyType) (del : SpecializedDeleteMultipleColumn) : Prop where
  same : del.types = types
  order : del.order.Perm (List.range types.length)
  widths : List.Forall₂ (fun type width => typeToBitWidth type = .ok width) types del.bitWidth
  room : del.bitWidth.sum ≤ del.bits
  count : types.length ≤ 8

section
variable {types : List KeyType} {del : SpecializedDeleteMultipleColumn}

def columnView (arrays : List KeyArray) (row : Nat) (id : Nat) : Bytes := (arrays.getD id default).getView row

lemma byteWidth_of_typeToBitWidth {type : KeyType} {width : Nat} (h : typeToBitWidth type = .ok width) :
    ∃ b, type.byteWidth = some b ∧ width = 8 * b := by
  cases type <;> simp_all [typeToBitWidth, KeyType.byteWidth]

lemma PackedFor.mem_order (hd : PackedFor types del) {id : Nat} : id ∈ del.order ↔ id < types.length := by
  rw [hd.order.mem_iff, List.mem_range]

lemma PackedFor.view_width (hd : PackedFor types del) {arrays : List KeyArray} (hc : ConformsTo types arrays)
    {id : Nat} (hid : id < types.length) (row : Nat) :
    del.bitWidth.getD id 0 = 8 * (columnView arrays row id).length := by
  have hlen : types.length = del.bitWidth.length := hd.widths.length_eq
  have hget := hd.widths.get hid (hlen ▸ hid)
  obtain ⟨b, hb, hw⟩ := byteWidth_of_typeToBitWidth hget
  have halen : arrays.length = types.length := by simpa using congrArg List.length hc
  have htype : (arrays.getD id default).type = types.get ⟨id, hid⟩ := by
    have hmap := congrArg (fun l => l[id]?) hc
    simpa [List.getD_eq_getElem?_getD, List.getElem?_eq_getElem (halen ▸ hid), List.getElem?_eq_getElem hid] using hmap
  rw [columnView, slot_fits _ row (htype ▸ hb), ← hw]
  simp [List.getD_eq_getElem?_getD, List.getElem?_eq_getElem (hlen ▸ hid)]

/-- The packing loop over columns whose bytes fit above those already packed. -/
lemma foldl_pack (bits : Nat) (width : Nat → Nat) (view : Nat → Bytes) (ids : List Nat) (packed : Bytes)
    (hwidth : ∀ id ∈ ids, width id = 8 * (view id).length)
    (hroom : 8 * (packed ++ ids.flatMap view).length ≤ bits) :
    ids.foldl (fun (p : Nat × Nat) id => ((p.1 + ofLeBytes (view id) <<< p.2) % 2 ^ bits, p.2 + width id))
      (ofLeBytes packed, 8 * packed.length) =
        (ofLeBytes (packed ++ ids.flatMap view), 8 * (packed ++ ids.flatMap view).length) := by
  induction ids generalizing packed with
  | nil => simp
  | cons id ids ih =>
    rw [List.flatMap_cons, ← List.append_assoc] at hroom ⊢
    have hstep : (ofLeBytes packed + ofLeBytes (view id) <<< (8 * packed.length)) % 2 ^ bits =
        ofLeBytes (packed ++ view id) := by
      have hpow : (256 : Nat) ^ packed.length = 2 ^ (8 * packed.length) := by rw [pow_mul]; norm_num
      have hlt : ofLeBytes (packed ++ view id) < 2 ^ bits := by
        have hle : 8 * (packed ++ view id).length ≤ bits := by
          rw [List.length_append] at hroom
          omega
        exact (ofLeBytes_lt_two_pow _).trans_le (Nat.pow_le_pow_right (by norm_num) hle)
      rw [Nat.shiftLeft_eq, ← hpow, mul_comm (ofLeBytes (view id)), ← ofLeBytes_append, Nat.mod_eq_of_lt hlt]
    have hshift : 8 * packed.length + width id = 8 * (packed ++ view id).length := by
      rw [hwidth id List.mem_cons_self, List.length_append]
      omega
    rw [List.foldl_cons]
    simp only [hstep, hshift]
    exact ih (packed ++ view id) (fun j hj => hwidth j (List.mem_cons_of_mem _ hj)) hroom

/-- The bytes of all columns fit into the number. -/
lemma PackedFor.room_for (hd : PackedFor types del) {arrays : List KeyArray} (hc : ConformsTo types arrays)
    (row : Nat) : 8 * (del.order.flatMap (columnView arrays row)).length ≤ del.bits := by
  have hlen : types.length = del.bitWidth.length := hd.widths.length_eq
  have hrange : (List.range types.length).map (fun id => del.bitWidth.getD id 0) = del.bitWidth := by
    apply List.ext_getElem (by simp [hlen])
    intro i h1 h2
    simp [List.getD_eq_getElem?_getD, List.getElem?_eq_getElem h2]
  have hsum : 8 * (del.order.flatMap (columnView arrays row)).length = del.bitWidth.sum := by
    rw [List.length_flatMap, ← hrange, ← (hd.order.map (fun id => del.bitWidth.getD id 0)).sum_eq,
      ← List.sum_map_mul_left]
    refine congrArg List.sum (List.map_congr_left ?_)
    intro id hid
    exact (hd.view_width hc (hd.mem_order.mp hid) row).symm
  exact hsum ▸ hd.room

lemma PackedFor.constructRowIgnoreNulls_eq (hd : PackedFor types del) {arrays : List KeyArray}
    (hc : ConformsTo types arrays) (row : Nat) :
    del.constructRowIgnoreNulls arrays row = ofLeBytes (del.order.flatMap (columnView arrays row)) := by
  have h := congrArg Prod.fst (foldl_pack del.bits (fun id => del.bitWidth.getD id 0) (columnView arrays row)
    del.order [] (fun id hid => hd.view_width hc (hd.mem_order.mp hid) row) (hd.room_for hc row))
  simpa [constructRowIgnoreNulls, packRow, columnView, ofLeBytes] using h

lemma PackedFor.isNull_of_mem_order (hd : PackedFor types del) {arrays : List KeyArray} (hc : ConformsTo types arrays)
    {row : Nat} (hn : ∀ array ∈ arrays, array.isNull row = false) :
    ∀ id ∈ del.order, (arrays.getD id default).isNull row = false := by
  intro id hid
  have hlen : arrays.length = types.length := by simpa using congrArg List.length hc
  have hlt : id < arrays.length := hlen ▸ hd.mem_order.mp hid
  rw [List.getD_eq_getElem?_getD, List.getElem?_eq_getElem hlt]
  exact hn _ (List.getElem_mem hlt)

/-- Without nulls both ways to pack a row agree. -/
lemma constructRow_eq {arrays : List KeyArray} {row : Nat}
    (hn : ∀ id ∈ del.order, (arrays.getD id default).isNull row = false) :
    del.constructRow arrays row = del.constructRowIgnoreNulls arrays row := by
  unfold constructRow constructRowIgnoreNulls packRow
  refine congrArg Prod.fst (List.foldl_ext _ _ _ ?_)
  intro p id hid
  simp only [hn id hid, Bool.and_false]

lemma PackedFor.nullsMask_eq (hd : PackedFor types del) (arrays : List KeyArray) (row : Nat) :
    del.nullsMask arrays row = bitmask del.order (fun id => (arrays.getD id default).isNull row) := by
  have hlt : bitmask del.order (fun id => (arrays.getD id default).isNull row) < 2 ^ types.length :=
    bitmask_lt (fun id hid => hd.mem_order.mp hid)
  exact Nat.mod_eq_of_lt (hlt.trans_le (Nat.pow_le_pow_right (by norm_num) hd.count))

/-- Null mask and packed number determine the slots of a row. -/
lemma PackedFor.key_iff (hd : PackedFor types del) {arrays arrays' : List KeyArray} (hc : ConformsTo types arrays)
    (hc' : ConformsTo types arrays') (row row' : Nat) :
    del.nullsMask arrays row = del.nullsMask arrays' row' ∧
        del.constructRowIgnoreNulls arrays row = del.constructRowIgnoreNulls arrays' row' ↔
      rowSlots arrays row = rowSlots arrays' row' := by
  have hlen : arrays.length = types.length := by simpa using congrArg List.length hc
  have hlen' : arrays'.length = types.length := by simpa using congrArg List.length hc'
  have hwidth : ∀ id ∈ del.order, (columnView arrays row id).length = (columnView arrays' row' id).length := by
    intro id hid
    have h1 := hd.view_width hc (hd.mem_order.mp hid) row
    have h2 := hd.view_width hc' (hd.mem_order.mp hid) row'
    omega
  rw [hd.nullsMask_eq, hd.nullsMask_eq, bitmask_eq_iff, hd.constructRowIgnoreNulls_eq hc,
    hd.constructRowIgnoreNulls_eq hc']
  constructor
  · rintro ⟨hmask, hpack⟩
    have hflat : del.order.flatMap (columnView arrays row) = del.order.flatMap (columnView arrays' row') := by
      apply ofLeBytes_inj _ hpack
      rw [List.length_flatMap, List.length_flatMap]
      exact congrArg List.sum (List.map_congr_left hwidth)
    have hview := flatMap_inj hwidth hflat
    apply map_eq_of_getD _ _ (hlen.trans hlen'.symm)
    intro id hid
    have hmem : id ∈ del.order := hd.mem_order.mpr (hlen ▸ hid)
    have h1 := hmask id hmem
    have h2 := hview id hmem
    unfold columnView KeyArray.getView at h2
    unfold KeyArray.isNull at h1
    cases hs : (arrays.getD id default).slot row
    cases hs' : (arrays'.getD id default).slot row'
    rw [hs, hs'] at h1 h2
    simp only at h1 h2
    rw [h1, h2]
  · intro h
    have hslot := getD_eq_of_map h
    refine ⟨?_, ?_⟩
    · intro id hid
      exact congrArg KeySlot.isNull (hslot id (hlen ▸ hd.mem_order.mp hid))
    · refine congrArg ofLeBytes (List.flatMap_congr ?_)
      intro id hid
      exact congrArg KeySlot.view (hslot id (hlen ▸ hd.mem_order.mp hid))

/-! ### The remembered layers -/

/-- The layer remembered for a null mask and a packed number is at least `x`. -/
def PackedReaches (del : SpecializedDeleteMultipleColumn) (mask key : Nat) (x : Int) : Prop :=
  if mask = 0 then del.values.Reaches key x
  else ∃ values, del.valuesWithNulls.find? mask = some values ∧ values.Reaches key x

lemma packedReaches_addRowWithNulls (arrays : List KeyArray) (layer : Int) (row mask key : Nat) (x : Int) :
    PackedReaches (addRowWithNulls arrays layer del row) mask key x ↔
      PackedReaches del mask key x ∨
        (del.nullsMask arrays row = mask ∧ del.constructRowIgnoreNulls arrays row = key ∧ x ≤ layer) := by
  unfold PackedReaches addRowWithNulls
  by_cases h0 : del.nullsMask arrays row = 0
  · by_cases hm : mask = 0
    · simp [h0, hm, OrdMap.reaches_updateMax]
    · simp [h0, hm, Ne.symm hm]
  · by_cases hm : mask = 0
    · simp [h0, hm]
    · simp only [h0, hm, if_false, OrdMap.find?_alter]
      by_cases heq : mask = del.nullsMask arrays row
      · subst heq
        cases hf : del.valuesWithNulls.find? (del.nullsMask arrays row) with
        | none =>
          have hempty : ¬(({} : OrdMap Nat Int).Reaches key x) := by
            rintro ⟨v, hv, -⟩
            cases hv
          simp [OrdMap.reaches_updateMax, hempty]
        | some values => simp [OrdMap.reaches_updateMax]
      · simp [heq, Ne.symm heq]

/-- Two packed deletes that encode rows in the same way. -/
structure SameCoding (del del' : SpecializedDeleteMultipleColumn) : Prop where
  types : del'.types = del.types
  order : del'.order = del.order
  bitWidth : del'.bitWidth = del.bitWidth
  bits : del'.bits = del.bits

lemma SameCoding.refl (del : SpecializedDeleteMultipleColumn) : SameCoding del del := ⟨rfl, rfl, rfl, rfl⟩

lemma SameCoding.trans {a b c : SpecializedDeleteMultipleColumn} (h : SameCoding a b) (h' : SameCoding b c) :
    SameCoding a c :=
  ⟨h'.types.trans h.types, h'.order.trans h.order, h'.bitWidth.trans h.bitWidth, h'.bits.trans h.bits⟩

lemma SameCoding.nullsMask {del' : SpecializedDeleteMultipleColumn} (h : SameCoding del del') (arrays : List KeyArray)
    (row : Nat) : del'.nullsMask arrays row = del.nullsMask arrays row := by
  rw [SpecializedDeleteMultipleColumn.nullsMask, SpecializedDeleteMultipleColumn.nullsMask, h.order]

lemma SameCoding.constructRowIgnoreNulls {del' : SpecializedDeleteMultipleColumn} (h : SameCoding del del')
    (arrays : List KeyArray) (row : Nat) :
    del'.constructRowIgnoreNulls arrays row = del.constructRowIgnoreNulls arrays row := by
  simp only [SpecializedDeleteMultipleColumn.constructRowIgnoreNulls, packRow, h.order, h.bitWidth, h.bits]

lemma SameCoding.packedFor {del' : SpecializedDeleteMultipleColumn} (h : SameCoding del del')
    (hd : PackedFor types del) : PackedFor types del' :=
  ⟨h.types.trans hd.same, h.order ▸ hd.order, h.bitWidth ▸ hd.widths, by rw [h.bitWidth, h.bits]; exact hd.room,
    hd.count⟩

lemma sameCoding_addRowWithNulls (arrays : List KeyArray) (layer : Int) (row : Nat) :
    SameCoding del (addRowWithNulls arrays layer del row) := by
  simp only [addRowWithNulls]
  split_ifs <;> exact ⟨rfl, rfl, rfl, rfl⟩

lemma foldl_addRowWithNulls (arrays : List KeyArray) (layer : Int) (rows : List Nat)
    (del : SpecializedDeleteMultipleColumn) :
    SameCoding del (rows.foldl (addRowWithNulls arrays layer) del) ∧
    ∀ mask key x, PackedReaches (rows.foldl (addRowWithNulls arrays layer) del) mask key x ↔
      PackedReaches del mask key x ∨ ∃ row ∈ rows,
        del.nullsMask arrays row = mask ∧ del.constructRowIgnoreNulls arrays row = key ∧ x ≤ layer := by
  induction rows generalizing del with
  | nil => exact ⟨.refl del, by simp⟩
  | cons row rows ih =>
    have hstep := @sameCoding_addRowWithNulls del arrays layer row
    obtain ⟨h1, h2⟩ := ih (addRowWithNulls arrays layer del row)
    refine ⟨hstep.trans h1, ?_⟩
    intro mask key x
    rw [List.foldl_cons, h2, packedReaches_addRowWithNulls]
    simp only [hstep.nullsMask, hstep.constructRowIgnoreNulls, List.mem_cons, exists_eq_or_imp, or_assoc]

lemma isNull_of_nullCount {array : KeyArray} (h : array.nullCount = 0) (row : Nat) : array.isNull row = false := by
  unfold KeyArray.isNull KeyArray.slot
  cases hs : array.slots[row]? with
  | none => rfl
  | some slot => simpa using List.countP_eq_zero.mp h slot (List.mem_of_getElem? hs)

/-- A batch without nulls is added like one with nulls. -/
lemma addRow_eq (hd : PackedFor types del) {arrays : List KeyArray} (hc : ConformsTo types arrays)
    (hn : ∀ array ∈ arrays, array.nullCount = 0) (layer : Int) (row : Nat) :
    addRow arrays layer del row = addRowWithNulls arrays layer del row := by
  have hnull : ∀ id ∈ del.order, (arrays.getD id default).isNull row = false :=
    hd.isNull_of_mem_order hc (fun array harray => isNull_of_nullCount (hn array harray) row)
  have hmask : del.nullsMask arrays row = 0 := by rw [hd.nullsMask_eq, bitmask_eq_zero.mpr hnull]
  unfold addRow addRowWithNulls
  rw [hmask, constructRow_eq hnull]
  rfl

lemma foldl_addRow_eq (hd : PackedFor types del) {arrays : List KeyArray} (hc : ConformsTo types arrays)
    (hn : ∀ array ∈ arrays, array.nullCount = 0) (layer : Int) (rows : List Nat) :
    rows.foldl (addRow arrays layer) del = rows.foldl (addRowWithNulls arrays layer) del := by
  induction rows generalizing del with
  | nil => rfl
  | cons row rows ih =>
    rw [List.foldl_cons, List.foldl_cons, addRow_eq hd hc hn]
    exact ih ((sameCoding_addRowWithNulls arrays layer row).packedFor hd)

/-- `Add` of the packed implementation. -/
lemma multipleColumn_add (hd : PackedFor types del) {arrays : List KeyArray} {rowsCount : Nat} {layer : Int}
    {next : SpecializedDeleteMultipleColumn} (h : del.add arrays rowsCount layer = .ok next) :
    next = (List.range rowsCount).foldl (addRowWithNulls arrays layer) del := by
  unfold SpecializedDeleteMultipleColumn.add at h
  obtain ⟨-, -, h⟩ := bind_ok h
  obtain ⟨_, htypes, h⟩ := bind_ok h
  have hc : ConformsTo types arrays := by simpa [ConformsTo, hd.same] using ensure_ok htypes
  split_ifs at h with hn
  · rw [← Except.ok.inj h]
    exact foldl_addRow_eq hd hc (by simpa using hn) layer _
  · obtain ⟨-, -, h⟩ := bind_ok h
    exact (Except.ok.inj h).symm

/-- `Add` of the packed implementation, over all calls. -/
lemma multipleColumn_addAll (hd : PackedFor types del) {calls : List AddCall} {result : EqualityDelete}
    (h : (EqualityDelete.multipleColumn del).addAll calls = .ok result) :
    ∃ final : SpecializedDeleteMultipleColumn, result = .multipleColumn final ∧ SameCoding del final ∧
      ∀ mask key x, PackedReaches final mask key x ↔ PackedReaches del mask key x ∨
        ∃ added ∈ addedRows calls, del.nullsMask added.1 added.2.1 = mask ∧
          del.constructRowIgnoreNulls added.1 added.2.1 = key ∧ x ≤ added.2.2 := by
  induction calls generalizing del with
  | nil =>
    obtain rfl := Except.ok.inj h
    exact ⟨del, rfl, .refl del, by simp [addedRows]⟩
  | cons call calls ih =>
    rw [EqualityDelete.addAll, List.foldlM_cons] at h
    obtain ⟨next, h1, h⟩ := bind_ok h
    simp only [EqualityDelete.add] at h1
    cases hadd : del.add call.arrays call.rowsCount call.deleteLayer with
    | error e => simp [hadd, Except.map] at h1
    | ok del' =>
      simp only [hadd, Except.map, Except.ok.injEq] at h1
      subst h1
      have heq := multipleColumn_add hd hadd
      obtain ⟨hcode, hreach⟩ := foldl_addRowWithNulls call.arrays call.deleteLayer (List.range call.rowsCount) del
      rw [← heq] at hcode hreach
      obtain ⟨final, rfl, hcode', hreach'⟩ := ih (hcode.packedFor hd) h
      refine ⟨final, rfl, hcode.trans hcode', ?_⟩
      intro mask key x
      rw [hreach', hreach, exists_addedRows_cons, or_assoc]
      simp only [hcode.nullsMask, hcode.constructRowIgnoreNulls]

/-- `IsDeleted` of the packed implementation. -/
lemma multipleColumn_isDeleted (hd : PackedFor types del) {arrays : List KeyArray} (hc : ConformsTo types arrays)
    (row : Nat) (dataLayer : Int) :
    del.isDeleted arrays row dataLayer = true ↔
      PackedReaches del (del.nullsMask arrays row) (del.constructRowIgnoreNulls arrays row) dataLayer := by
  have hlen : arrays.length = types.length := by simpa using congrArg List.length hc
  have hmask : del.nullsMask arrays row = 0 ↔ ∀ array ∈ arrays, array.isNull row = false := by
    rw [hd.nullsMask_eq, bitmask_eq_zero]
    constructor
    · intro h array harray
      obtain ⟨i, hi, rfl⟩ := List.mem_iff_getElem.mp harray
      have := h i (hd.mem_order.mpr (hlen ▸ hi))
      simpa [List.getD_eq_getElem?_getD, List.getElem?_eq_getElem hi] using this
    · exact fun h => hd.isNull_of_mem_order hc h
  unfold SpecializedDeleteMultipleColumn.isDeleted PackedReaches
  by_cases h0 : del.nullsMask arrays row = 0
  · have hnone : arrays.any (fun array => array.isNull row) = false := by simpa using hmask.mp h0
    have hnull : ∀ id ∈ del.order, (arrays.getD id default).isNull row = false := by
      rwa [hd.nullsMask_eq, bitmask_eq_zero] at h0
    rw [hnone, if_pos h0, constructRow_eq hnull]
    exact layerDeletes_iff
  · have hsome : arrays.any (fun array => array.isNull row) = true := by
      by_contra hne
      exact h0 (hmask.mpr (by simpa using hne))
    rw [hsome, if_neg h0, if_pos rfl]
    cases hf : del.valuesWithNulls.find? (del.nullsMask arrays row) with
    | none => simp
    | some values => simp [layerDeletes_iff]

end

end IcebergCxx.Proofs
