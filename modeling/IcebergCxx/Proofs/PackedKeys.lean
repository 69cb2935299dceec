import IcebergCxx.Proofs.EqualityDeleteLaw

/-!
# Packed keys are injective

`ConstructRow` puts the columns of a row side by side: every field has the width of its column and starts
where the fields before it end, so that the sum is a bitwise or and can be taken apart again.
-/

namespace IcebergCxx.Proofs

open Lib SpecializedDeleteMultipleColumn

/-- The integer in a column, whose bytes are in two's complement. -/
def columnValue (arrays : List KeyArray) (row id : Nat) : Int :=
  (ofLeBytes (columnView arrays row id) : Int).bmod (2 ^ (8 * (columnView arrays row id).length))

def RowWithoutNulls (arrays : List KeyArray) (row : Nat) : Prop := ∀ array ∈ arrays, array.isNull row = false

/-- `result` and `current_shift` of `ConstructRow` after some of the columns, none of them null. -/
def packState (del : SpecializedDeleteMultipleColumn) (arrays : List KeyArray) (row : Nat) (columns : List Nat) :
    Nat × Nat :=
  columns.foldl (fun (p : Nat × Nat) id => ((p.1 + ofLeBytes (columnView arrays row id) <<< p.2) % 2 ^ del.bits,
    p.2 + del.bitWidth.getD id 0)) (0, 0)

/-- What the loop adds for a column: its value modulo `2 ^ width`, above everything that was added before. -/
structure AddsField (bits : Nat) (state : Nat × Nat) (added width : Nat) (value : Int) : Prop where
  unsigned : (added : Int) = value % 2 ^ width
  added_lt : added < 2 ^ width
  result_lt : state.1 < 2 ^ state.2
  shift_lt : state.2 < bits
  room : state.2 + width ≤ bits
  noCarry : (state.1 + added <<< state.2) % 2 ^ bits = state.1 ||| added <<< state.2

variable {types : List KeyType} {del : SpecializedDeleteMultipleColumn} {arrays arrays' : List KeyArray}
  {row row' : Nat}

lemma addsField_of_room {bits width : Nat} {state : Nat × Nat} {view : Bytes} (hwidth : width = 8 * view.length)
    (hpos : 0 < view.length) (hresult : state.1 < 2 ^ state.2) (hroom : state.2 + width ≤ bits) :
    AddsField bits state (ofLeBytes view) width ((ofLeBytes view : Int).bmod (2 ^ (8 * view.length))) := by
  have hadded : ofLeBytes view < 2 ^ width := hwidth ▸ ofLeBytes_lt_two_pow view
  have hor : state.1 + ofLeBytes view <<< state.2 = state.1 ||| ofLeBytes view <<< state.2 := by
    rw [Nat.add_comm, Nat.shiftLeft_add_eq_or_of_lt hresult, Nat.or_comm]
  have hsum : state.1 + ofLeBytes view <<< state.2 < 2 ^ bits := by
    have hle : 2 ^ (state.2 + width) ≤ 2 ^ bits := Nat.pow_le_pow_right (by norm_num) hroom
    refine lt_of_lt_of_le ?_ hle
    rw [Nat.shiftLeft_eq, pow_add]
    nlinarith
  refine ⟨?_, hadded, hresult, by omega, hroom, ?_⟩
  · rw [← hwidth]
    have hmod : ((ofLeBytes view : Int).bmod (2 ^ width)) % 2 ^ width = (ofLeBytes view : Int) % 2 ^ width := by
      have := @Int.bmod_emod (ofLeBytes view) (2 ^ width)
      push_cast at this
      exact this
    rw [hmod, Int.emod_eq_of_lt (by omega) (by exact_mod_cast hadded)]
  · rw [Nat.mod_eq_of_lt hsum, hor]

/-- The loop of `ConstructRow` goes through these states. -/
lemma constructRow_eq_packState (hd : PackedFor types del) (hc : ConformsTo types arrays)
    (hn : RowWithoutNulls arrays row) : del.constructRow arrays row = (packState del arrays row del.order).1 := by
  rw [constructRow_eq (hd.isNull_of_mem_order hc hn)]
  simp only [constructRowIgnoreNulls, packRow, packState, columnView, Bool.false_and, Bool.false_eq_true, if_false]

lemma PackedFor.packState_eq (hd : PackedFor types del) (hc : ConformsTo types arrays) (row : Nat)
    {columns rest : List Nat} (horder : del.order = columns ++ rest) :
    packState del arrays row columns = (ofLeBytes (columns.flatMap (columnView arrays row)),
      8 * (columns.flatMap (columnView arrays row)).length) := by
  have hroom := hd.room_for hc row
  rw [horder, List.flatMap_append, List.length_append] at hroom
  refine foldl_pack del.bits (fun id => del.bitWidth.getD id 0) (columnView arrays row) columns [] ?_ ?_
  · intro id hid
    exact hd.view_width hc (hd.mem_order.mp (by rw [horder]; exact List.mem_append_left _ hid)) row
  · rw [List.nil_append]
    omega

lemma PackedFor.view_pos (hd : PackedFor types del) (hc : ConformsTo types arrays) {id : Nat}
    (hid : id < types.length) (row : Nat) : 0 < (columnView arrays row id).length := by
  have hlen : types.length = del.bitWidth.length := hd.widths.length_eq
  have hwidth := hd.view_width hc hid row
  have hpos : ∀ type width, typeToBitWidth type = .ok width → 0 < width := by
    intro type width h
    cases type <;> cases h <;> decide
  have hget := hpos _ _ (hd.widths.get hid (hlen ▸ hid))
  rw [List.getD_eq_getElem?_getD, List.getElem?_eq_getElem (hlen ▸ hid), Option.getD_some] at hwidth
  simp only [List.get_eq_getElem] at hget
  omega

/-- Every column is added above the ones before it. -/
lemma PackedFor.addsField (hd : PackedFor types del) (hc : ConformsTo types arrays) (row : Nat)
    {columns rest : List Nat} {id : Nat} (horder : del.order = columns ++ id :: rest) :
    AddsField del.bits (packState del arrays row columns) (ofLeBytes (columnView arrays row id))
      (del.bitWidth.getD id 0) (columnValue arrays row id) := by
  have hid : id < types.length := hd.mem_order.mp (by rw [horder]; simp)
  have hwidth := hd.view_width hc hid row
  have hroom := hd.room_for hc row
  rw [horder, List.flatMap_append, List.flatMap_cons, List.length_append, List.length_append] at hroom
  rw [hd.packState_eq hc row horder]
  refine addsField_of_room hwidth (hd.view_pos hc hid row) (ofLeBytes_lt_two_pow _) ?_
  simp only
  omega

lemma columnValue_eq_iff (hd : PackedFor types del) (hc : ConformsTo types arrays) (hc' : ConformsTo types arrays')
    {id : Nat} (hid : id < types.length) :
    columnValue arrays row id = columnValue arrays' row' id ↔
      columnView arrays row id = columnView arrays' row' id := by
  have hlen : (columnView arrays row id).length = (columnView arrays' row' id).length := by
    have h1 := hd.view_width hc hid row
    have h2 := hd.view_width hc' hid row'
    omega
  constructor
  · intro h
    have hadded : ∀ view : Bytes,
        ((ofLeBytes view : Int).bmod (2 ^ (8 * view.length))) % (2 ^ (8 * view.length) : Nat) = ofLeBytes view := by
      intro view
      rw [Int.bmod_emod, Int.emod_eq_of_lt (by omega) (by exact_mod_cast ofLeBytes_lt_two_pow view)]
    have h1 := hadded (columnView arrays row id)
    have h2 := hadded (columnView arrays' row' id)
    rw [columnValue, columnValue] at h
    rw [h, hlen, h2] at h1
    exact ofLeBytes_inj hlen (by omega)
  · intro h
    rw [columnValue, columnValue, h]

/-- Rows without nulls have the same packed integer exactly if they are equal in every column. No column is shifted out
of the integer, and no sum carries. -/
theorem constructRow_injective (sortBy : ∀ width : Nat → Nat, DescendingSort width) (types : List KeyType)
    (hall : types.all KeyType.isSpecialized = true) (hcount : 2 ≤ types.length) (hwidth : totalBitWidth types ≤ 128) :
    ∃ del, makeEqualityDelete sortBy types true = .ok (.multipleColumn del) ∧
      (del.bits = 32 ∨ del.bits = 64 ∨ del.bits = 128) ∧
      (∀ arrays row, ConformsTo types arrays → RowWithoutNulls arrays row →
        del.constructRow arrays row = (packState del arrays row del.order).1 ∧
        ∀ columns id rest, del.order = columns ++ id :: rest →
          AddsField del.bits (packState del arrays row columns) (ofLeBytes (columnView arrays row id))
            (del.bitWidth.getD id 0) (columnValue arrays row id)) ∧
      ∀ arrays arrays' row row', ConformsTo types arrays → ConformsTo types arrays' → RowWithoutNulls arrays row →
        RowWithoutNulls arrays' row' →
        (del.constructRow arrays row = del.constructRow arrays' row' ↔
          ∀ id < types.length, columnValue arrays row id = columnValue arrays' row' id) := by
  obtain ⟨del, hdel, hd, -, -, hbits⟩ := makeEqualityDelete_packed sortBy hall (by omega) hwidth
  refine ⟨del, hdel, hbits, ?_, ?_⟩
  · intro arrays row hc hn
    exact ⟨constructRow_eq_packState hd hc hn, fun columns id rest horder => hd.addsField hc row horder⟩
  · intro arrays arrays' row row' hc hc' hn hn'
    have hsame : (∀ id < types.length, columnValue arrays row id = columnValue arrays' row' id) ↔
        ∀ id ∈ del.order, columnView arrays row id = columnView arrays' row' id := by
      constructor
      · intro h id hid
        have hlt := hd.mem_order.mp hid
        exact (columnValue_eq_iff hd hc hc' hlt).mp (h id hlt)
      · intro h id hid
        exact (columnValue_eq_iff hd hc hc' hid).mpr (h id (hd.mem_order.mpr hid))
    rw [hsame, constructRow_eq (hd.isNull_of_mem_order hc hn), constructRow_eq (hd.isNull_of_mem_order hc' hn'),
      hd.constructRowIgnoreNulls_eq hc, hd.constructRowIgnoreNulls_eq hc']
    have hlen : ∀ id ∈ del.order, (columnView arrays row id).length = (columnView arrays' row' id).length := by
      intro id hid
      have h1 := hd.view_width hc (hd.mem_order.mp hid) row
      have h2 := hd.view_width hc' (hd.mem_order.mp hid) row'
      omega
    constructor
    · intro h
      refine flatMap_inj hlen (ofLeBytes_inj ?_ h)
      rw [List.length_flatMap, List.length_flatMap]
      exact congrArg List.sum (List.map_congr_left hlen)
    · intro h
      exact congrArg ofLeBytes (List.flatMap_congr h)

/-- The rows `(-1, 2)` and `(2, -1)`. -/
def negativePairs : List KeyArray :=
  [int16Column [(false, 65535), (false, 2)], int16Column [(false, 2), (false, 65535)]]

theorem negativePairs_distinguished : ∃ del,
    makeEqualityDelete insertionSortBy [.int16, .int16] true = .ok (.multipleColumn del) ∧
      del.constructRow negativePairs 0 ≠ del.constructRow negativePairs 1 := by
  obtain ⟨del, hdel, -, -, hinj⟩ := constructRow_injective insertionSortBy [.int16, .int16] (by decide) (by decide)
    (by decide)
  have hfirst : RowWithoutNulls negativePairs 0 := by unfold RowWithoutNulls; decide
  have hsecond : RowWithoutNulls negativePairs 1 := by unfold RowWithoutNulls; decide
  refine ⟨del, hdel, fun h => ?_⟩
  have hvalues := (hinj negativePairs negativePairs 0 1 rfl rfl hfirst hsecond).mp h 0 (by decide)
  exact absurd hvalues (by decide)

end IcebergCxx.Proofs
