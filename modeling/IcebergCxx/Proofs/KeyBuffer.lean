import IcebergCxx.GenericDeleteKey
import IcebergCxx.Lib.Effects
import IcebergCxx.Proofs.EqualityDelete

/-!
# The buffer of a general key

`WriteToData` writes a length in front of decimals and fixed-size byte strings, and a whole byte for a boolean, none of
which `GetWidth` counts. Of the other columns both take the same bytes, as long as the size fits a `uint32_t`.
-/

namespace IcebergCxx.Proofs

open Lib GenericDeleteKey

/-- The types that `WriteToData` accepts. -/
def KnownTypes (columns : List KeyColumn) : Prop := ∀ column ∈ columns, ∀ byteWidth, column.type ≠ .other byteWidth

/-- The constructor writes as many bytes as it allocated, or throws before it writes. -/
def FitsBuffer (columns : List KeyColumn) (row : Nat) (m : MemoryState) : Prop :=
  (∃ e m', allocateBuffer columns row m = .error e m') ∨
    ∃ key m', construct columns row m = .ok key m' ∧ key.written.length = key.size

/-- The bytes that `GetWidth` has in mind for a value, before they are put into an `int`. -/
def exactWidth (column : KeyColumn) (row : Nat) : Nat := column.type.byteWidth.getD (4 + (column.getView row).length)

def nonNulls (columns : List KeyColumn) (row : Nat) : List KeyColumn := columns.filter (fun column => !column.isNull row)

/-- The bytes of the null mask and of all values that are not null. -/
def exactSize (columns : List KeyColumn) (row : Nat) : Nat :=
  8 + ((nonNulls columns row).map (fun column => exactWidth column row)).sum

/-- The types whose values take as many bytes as `GetWidth` counts. -/
def CountedAsWritten : ColumnType → Prop
  | .bool | .fixedSizeBinary _ | .decimal128 => False
  | _ => True

/-- The bytes that are written and not counted. -/
def uncounted : ColumnType → Nat
  | .bool => 1
  | .fixedSizeBinary _ | .decimal128 => 4
  | _ => 0

/-- The limit refuses the size of a key, or a buffer. -/
def Refused (m : MemoryState) (size : Nat) : Prop := ∃ e m', (allocate 4 >>= fun _ => allocate size) m = .error e m'

lemma uncounted_eq_zero {type : ColumnType} : uncounted type = 0 ↔ CountedAsWritten type := by
  cases type <;> simp [uncounted, CountedAsWritten]

lemma nonNulls_cons (column : KeyColumn) (columns : List KeyColumn) (row : Nat) :
    nonNulls (column :: columns) row = if column.isNull row then nonNulls columns row else column :: nonNulls columns row := by
  unfold nonNulls
  cases h : column.isNull row <;> simp [h]

lemma mem_nonNulls {columns : List KeyColumn} {row : Nat} {column : KeyColumn} :
    column ∈ nonNulls columns row ↔ column ∈ columns ∧ column.isNull row = false := by
  simp [nonNulls]

lemma length_view (column : KeyColumn) (row : Nat) {width : Nat} (hw : column.type.viewWidth = some width) :
    (column.getView row).length = width := by
  unfold KeyColumn.getView KeyColumn.slot
  cases h : column.slots[row]? with
  | none => simp [hw]
  | some slot => exact column.fits slot (List.mem_of_getElem? h) width hw

/-! ### Widths -/

lemma getWidth_list {column : KeyColumn} (h : column.type = .list) (row : Nat) :
    column.getWidth row = .error (.thrown "GetWidth: unexpected type") := by
  rw [KeyColumn.getWidth, h]
  rfl

lemma getWidth_ok {column : KeyColumn} (row : Nat) (hother : ∀ byteWidth, column.type ≠ .other byteWidth)
    (hlist : column.type ≠ .list) :
    ∃ width, column.getWidth row = .ok width ∧ width % 2 ^ 32 = (exactWidth column row : Int) % 2 ^ 32 := by
  cases hw : column.type.byteWidth with
  | some width =>
    refine ⟨width, ?_, ?_⟩
    · rw [KeyColumn.getWidth, hw]
    · rw [exactWidth, hw, Option.getD_some]
  | none =>
    refine ⟨wrapInt32 (4 + (column.getView row).length), ?_, ?_⟩
    · rw [KeyColumn.getWidth, hw]
      cases ht : column.type with
      | list => exact absurd ht hlist
      | other byteWidth => exact absurd ht (hother byteWidth)
      | key type =>
        rw [ht] at hw
        cases type <;> cases hw <;> rfl
      | _ => rw [ht] at hw; cases hw
    · obtain ⟨k, hk, -⟩ := wrapInt32_spec (4 + (column.getView row).length)
      rw [hk, exactWidth, hw, Option.getD_none]
      push_cast
      omega

lemma foldlM_width_ok {columns : List KeyColumn} {row : Nat} (haccepted : KnownTypes columns)
    (hlist : ∀ column ∈ nonNulls columns row, column.type ≠ .list) (total : Int) :
    ∃ sum, columns.foldlM (fun total column =>
        if column.isNull row then (pure total : Except Exit Int)
        else do
          let width ← column.getWidth row
          return (total + width) % 2 ^ 64) total = .ok sum ∧
      sum % 2 ^ 32 = (total + ((nonNulls columns row).map (fun column => exactWidth column row)).sum) % 2 ^ 32 := by
  induction columns generalizing total with
  | nil => exact ⟨total, rfl, by simp [nonNulls]⟩
  | cons column columns ih =>
    have htail : KnownTypes columns := fun c hc => haccepted c (List.mem_cons_of_mem _ hc)
    rw [nonNulls_cons] at hlist ⊢
    rw [List.foldlM_cons]
    cases hnull : column.isNull row with
    | true =>
      rw [hnull] at hlist
      exact ih htail hlist total
    | false =>
      rw [hnull] at hlist
      obtain ⟨width, hwidth, hmod⟩ := getWidth_ok row (haccepted column List.mem_cons_self)
        (hlist column List.mem_cons_self)
      obtain ⟨sum, hsum, hsumMod⟩ := ih htail (fun c hc => hlist c (List.mem_cons_of_mem _ hc)) ((total + width) % 2 ^ 64)
      refine ⟨sum, ?_, ?_⟩
      · rw [if_neg (by simp), hwidth]
        exact hsum
      · rw [if_neg (by simp), List.map_cons, List.sum_cons, hsumMod]
        push_cast
        omega

lemma foldlM_width_error {columns : List KeyColumn} {row : Nat}
    (hlist : ∃ column ∈ nonNulls columns row, column.type = .list) (total : Int) :
    ∃ e, columns.foldlM (fun total column =>
        if column.isNull row then (pure total : Except Exit Int)
        else do
          let width ← column.getWidth row
          return (total + width) % 2 ^ 64) total = .error e := by
  induction columns generalizing total with
  | nil =>
    obtain ⟨column, hmem, -⟩ := hlist
    exact absurd hmem List.not_mem_nil
  | cons column columns ih =>
    rw [nonNulls_cons] at hlist
    rw [List.foldlM_cons]
    cases hnull : column.isNull row with
    | true =>
      rw [hnull] at hlist
      exact ih hlist total
    | false =>
      rw [hnull, if_neg (by simp)] at hlist
      rw [if_neg (by simp)]
      cases hwidth : column.getWidth row with
      | error e => exact ⟨e, rfl⟩
      | ok width =>
        obtain ⟨c, hc, ht⟩ := hlist
        rcases List.mem_cons.mp hc with rfl | hc
        · rw [getWidth_list ht] at hwidth
          cases hwidth
        · exact ih ⟨c, hc, ht⟩ _

/-- Without lists the size is the exact one, as far as 32 bits go. -/
lemma totalWidth_ok {columns : List KeyColumn} {row : Nat} (haccepted : KnownTypes columns)
    (hlist : ∀ column ∈ nonNulls columns row, column.type ≠ .list) :
    ∃ total, totalWidth columns row = .ok total ∧ ((8 + total) % 2 ^ 32).toNat = exactSize columns row % 2 ^ 32 := by
  obtain ⟨total, hok, hmod⟩ := foldlM_width_ok haccepted hlist 0
  refine ⟨total, hok, ?_⟩
  unfold exactSize
  omega

/-! ### Written bytes -/

lemma writeToData_ok {column : KeyColumn} (row : Nat) (hother : ∀ byteWidth, column.type ≠ .other byteWidth)
    (hlist : column.type ≠ .list) :
    ∃ value, column.writeToData row = .ok value ∧ value.length = exactWidth column row + uncounted column.type := by
  have hview : ∀ width, column.type.viewWidth = some width → (column.getView row).length = width :=
    fun width => length_view column row
  unfold exactWidth
  cases ht : column.type with
  | list => exact absurd ht hlist
  | other byteWidth => exact absurd ht (hother byteWidth)
  | bool | float | double =>
    rw [ht] at hview
    refine ⟨column.getView row, by rw [KeyColumn.writeToData, ht], ?_⟩
    rw [hview _ rfl]
    rfl
  | fixedSizeBinary byteWidth =>
    rw [ht] at hview
    refine ⟨writeStringViewToData (column.getView row), by rw [KeyColumn.writeToData, ht], ?_⟩
    rw [writeStringViewToData, List.length_append, length_leBytes, hview _ rfl, add_comm]
    rfl
  | decimal128 =>
    rw [ht] at hview
    refine ⟨writeStringViewToData (column.getView row), by rw [KeyColumn.writeToData, ht], ?_⟩
    rw [writeStringViewToData, List.length_append, length_leBytes, hview _ rfl]
    rfl
  | key type =>
    rw [ht] at hview
    cases type with
    | string | binary =>
      refine ⟨writeStringViewToData (column.getView row), by rw [KeyColumn.writeToData, ht], ?_⟩
      rw [writeStringViewToData, List.length_append, length_leBytes]
      rfl
    | _ =>
      refine ⟨column.getView row, by rw [KeyColumn.writeToData, ht], ?_⟩
      rw [hview _ rfl]
      rfl

lemma foldlM_write_ok {columns : List KeyColumn} {row : Nat} (haccepted : KnownTypes columns)
    (hlist : ∀ column ∈ nonNulls columns row, column.type ≠ .list) (data : Bytes) :
    ∃ written, columns.foldlM (fun data column =>
        if column.isNull row then (pure data : Except Exit Bytes)
        else do
          let value ← column.writeToData row
          return data ++ value) data = .ok written ∧
      written.length = data.length + ((nonNulls columns row).map (fun column => exactWidth column row)).sum +
        ((nonNulls columns row).map (fun column => uncounted column.type)).sum := by
  induction columns generalizing data with
  | nil => exact ⟨data, rfl, by simp [nonNulls]⟩
  | cons column columns ih =>
    have htail : KnownTypes columns := fun c hc => haccepted c (List.mem_cons_of_mem _ hc)
    rw [nonNulls_cons] at hlist ⊢
    rw [List.foldlM_cons]
    cases hnull : column.isNull row with
    | true =>
      rw [hnull] at hlist
      exact ih htail hlist data
    | false =>
      rw [hnull] at hlist
      obtain ⟨value, hvalue, hlen⟩ := writeToData_ok row (haccepted column List.mem_cons_self)
        (hlist column List.mem_cons_self)
      obtain ⟨written, hwritten, hwrittenLen⟩ := ih htail (fun c hc => hlist c (List.mem_cons_of_mem _ hc)) (data ++ value)
      refine ⟨written, ?_, ?_⟩
      · rw [if_neg (by simp), hvalue]
        exact hwritten
      · rw [if_neg (by simp), List.map_cons, List.map_cons, List.sum_cons, List.sum_cons, hwrittenLen, List.length_append,
          hlen]
        omega

lemma writtenData_ok {columns : List KeyColumn} {row : Nat} (haccepted : KnownTypes columns)
    (hlist : ∀ column ∈ nonNulls columns row, column.type ≠ .list) :
    ∃ written, writtenData columns row = .ok written ∧ written.length =
      exactSize columns row + ((nonNulls columns row).map (fun column => uncounted column.type)).sum := by
  obtain ⟨written, hok, hlen⟩ := foldlM_write_ok haccepted hlist (leBytes 8 (GenericDeleteKey.nullBitmask columns row))
  refine ⟨written, hok, ?_⟩
  rw [hlen, length_leBytes, exactSize]

/-! ### The constructor -/

lemma allocateBuffer_list {columns : List KeyColumn} {row : Nat}
    (hlist : ∃ column ∈ nonNulls columns row, column.type = .list) (m : MemoryState) :
    ∃ e m', allocateBuffer columns row m = .error e m' := by
  obtain ⟨e, he⟩ := foldlM_width_error hlist 0
  refine ⟨e, m, bind_apply_error ?_⟩
  rw [totalWidth, he]
  rfl

/-- Without lists the constructor counts the size and the buffer, and then writes. -/
lemma construct_eq {columns : List KeyColumn} {row : Nat} (haccepted : KnownTypes columns)
    (hlist : ∀ column ∈ nonNulls columns row, column.type ≠ .list) :
    ∃ written, writtenData columns row = .ok written ∧ written.length = exactSize columns row +
        ((nonNulls columns row).map (fun column => uncounted column.type)).sum ∧
      allocateBuffer columns row = (do
        allocate 4
        allocate (exactSize columns row % 2 ^ 32)
        return exactSize columns row % 2 ^ 32) ∧
      construct columns row = (do
        allocate 4
        allocate (exactSize columns row % 2 ^ 32)
        return ⟨exactSize columns row % 2 ^ 32, written⟩) := by
  obtain ⟨total, htotal, hsize⟩ := totalWidth_ok haccepted hlist
  obtain ⟨written, hwritten, hlen⟩ := writtenData_ok haccepted hlist
  have hbuffer : allocateBuffer columns row = (do
      allocate 4
      allocate (exactSize columns row % 2 ^ 32)
      return exactSize columns row % 2 ^ 32) := by
    unfold allocateBuffer
    rw [htotal]
    change (do
      allocate 4
      allocate ((8 + total) % 2 ^ 32).toNat
      return ((8 + total) % 2 ^ 32).toNat) = _
    rw [hsize]
  refine ⟨written, hwritten, hlen, hbuffer, ?_⟩
  unfold construct
  rw [hbuffer, hwritten]
  simp only [bind_assoc, pure_bind]
  rfl

/-- A key fits its buffer exactly when its size fits 32 bits and no boolean, fixed-size byte string or decimal is written,
unless a list or the limit keeps the constructor from writing. -/
theorem fitsBuffer_iff {columns : List KeyColumn} (haccepted : KnownTypes columns) (row : Nat) (m : MemoryState) :
    FitsBuffer columns row m ↔
      (∃ column ∈ nonNulls columns row, column.type = .list) ∨ Refused m (exactSize columns row % 2 ^ 32) ∨
        ((∀ column ∈ nonNulls columns row, CountedAsWritten column.type) ∧ exactSize columns row < 2 ^ 32) := by
  by_cases hlist : ∃ column ∈ nonNulls columns row, column.type = .list
  · exact iff_of_true (.inl (allocateBuffer_list hlist m)) (.inl hlist)
  obtain ⟨written, -, hlen, hbuffer, hconstruct⟩ := construct_eq haccepted (fun column hc ht => hlist ⟨column, hc, ht⟩)
  have hcounted : ((nonNulls columns row).map (fun column => uncounted column.type)).sum = 0 ↔
      ∀ column ∈ nonNulls columns row, CountedAsWritten column.type := by
    rw [List.sum_eq_zero_iff, List.forall_mem_map]
    exact forall₂_congr (fun column _ => uncounted_eq_zero)
  rw [FitsBuffer, Refused, hbuffer, hconstruct, ← hcounted]
  simp only [← bind_assoc]
  cases h : (allocate 4 >>= fun _ => allocate (exactSize columns row % 2 ^ 32)) m with
  | error e m' => exact iff_of_true (.inl ⟨e, m', bind_apply_error h⟩) (.inr (.inl ⟨e, m', rfl⟩))
  | ok _ m' =>
    have hsize : written.length = exactSize columns row % 2 ^ 32 ↔
        ((nonNulls columns row).map (fun column => uncounted column.type)).sum = 0 ∧ exactSize columns row < 2 ^ 32 := by
      rw [hlen]
      omega
    constructor
    · rintro (⟨e, m₁, herror⟩ | ⟨key, m₁, hok, hkey⟩)
      · rw [bind_apply_ok h] at herror
        cases herror
      · rw [bind_apply_ok h] at hok
        cases hok
        exact .inr (.inr (hsize.mp hkey))
    · rintro (hmem | ⟨e, m₁, herror⟩ | hfit)
      · exact absurd hmem hlist
      · cases herror
      · exact .inr ⟨⟨exactSize columns row % 2 ^ 32, written⟩, m', bind_apply_ok h, hsize.mpr hfit⟩

/-- The number 7 and the text "ab". -/
def numberAndText : List KeyColumn :=
  [⟨.key .int32, [⟨false, [7, 0, 0, 0]⟩], by decide⟩, ⟨.key .string, [⟨false, bytes "ab"⟩], fun _ _ _ h => absurd h (by simp [ColumnType.viewWidth, ColumnType.byteWidth, KeyType.byteWidth])⟩]

theorem numberAndText_fits : FitsBuffer numberAndText 0 ⟨none, true, true, false, 0, false, false⟩ :=
  (fitsBuffer_iff (by unfold KnownTypes; simp [numberAndText]) 0 _).mpr
    (.inr (.inr ⟨by simp [numberAndText, nonNulls, CountedAsWritten], by decide⟩))

/-- A decimal. -/
def decimalColumn : KeyColumn := ⟨.decimal128, [⟨false, List.replicate 16 1⟩], by decide⟩

/-- Of a decimal 28 bytes are written into a buffer of 24. -/
theorem decimalColumn_overflows : ¬FitsBuffer [decimalColumn] 0 ⟨none, true, true, false, 0, false, false⟩ := by
  have hconstruct : construct [decimalColumn] 0 ⟨none, true, true, false, 0, false, false⟩ =
      .ok ⟨24, leBytes 8 0 ++ (leBytes 4 16 ++ List.replicate 16 1)⟩ ⟨none, true, true, false, 28, false, false⟩ := by
    rfl
  rintro (⟨e, m', h⟩ | ⟨key, m', h, hkey⟩)
  · rw [construct, bind_apply_error h] at hconstruct
    cases hconstruct
  · rw [hconstruct] at h
    cases h
    exact absurd hkey (by decide)

/-! ### Keys of the simple types -/

lemma writeToData_toKeyColumn (array : KeyArray) (row : Nat) :
    array.toKeyColumn.writeToData row = .ok (writeToData array row) := by
  unfold writeToData
  obtain ⟨type, slots, fits⟩ := array
  cases type <;> rfl

lemma foldlM_write_toKeyColumn (arrays : List KeyArray) (row : Nat) (data : Bytes) :
    (arrays.map KeyArray.toKeyColumn).foldlM (fun data column =>
        if column.isNull row then (pure data : Except Exit Bytes)
        else do
          let value ← column.writeToData row
          return data ++ value) data = .ok (data ++ writtenRow arrays row) := by
  induction arrays generalizing data with
  | nil =>
    rw [writtenRow, List.filter_nil, List.flatMap_nil, List.append_nil]
    rfl
  | cons array arrays ih =>
    have hnull : array.toKeyColumn.isNull row = array.isNull row := rfl
    rw [List.map_cons, List.foldlM_cons, hnull, writtenRow_cons]
    split_ifs with h
    · exact ih data
    · rw [writeToData_toKeyColumn, ← List.append_assoc]
      exact ih (data ++ writeToData array row)

lemma writtenData_toKeyColumn (arrays : List KeyArray) (row : Nat) :
    writtenData (arrays.map KeyArray.toKeyColumn) row = .ok (keyData arrays row) := by
  have hmask : GenericDeleteKey.nullBitmask (arrays.map KeyArray.toKeyColumn) row = IcebergCxx.nullBitmask arrays row := by
    unfold GenericDeleteKey.nullBitmask IcebergCxx.nullBitmask
    rw [List.length_map, bitmask_eq_iff]
    intro id hid
    have hlt := List.mem_range.mp hid
    simp [List.getD_eq_getElem?_getD, List.getElem?_eq_getElem hlt]
    rfl
  rw [writtenData, foldlM_write_toKeyColumn, hmask]
  rfl

lemma exactSize_toKeyColumn (arrays : List KeyArray) (row : Nat) :
    exactSize (arrays.map KeyArray.toKeyColumn) row = keySize arrays row := by
  have hwidth : ∀ array : KeyArray, exactWidth array.toKeyColumn row = getWidth array row := by
    intro array
    unfold exactWidth getWidth
    cases h : array.type.byteWidth with
    | none =>
      have : array.toKeyColumn.type.byteWidth = none := h
      rw [this]
      rfl
    | some width =>
      have : array.toKeyColumn.type.byteWidth = some width := h
      rw [this]
      rfl
  unfold exactSize nonNulls keySize
  rw [List.filter_map, List.map_map]
  exact congrArg (8 + List.sum ·) (List.map_congr_left (fun array _ => hwidth array))

/-- The bytes that are compared of a key are those of the general delete. -/
theorem comparedBytes_construct {arrays : List KeyArray} {row : Nat} {m m' : MemoryState} {key : GenericDeleteKey}
    (h : construct (arrays.map KeyArray.toKeyColumn) row m = .ok key m') :
    key.comparedBytes = genericDeleteKey arrays row ∧ key.size = keySize arrays row % 2 ^ 32 := by
  have hlist : ∀ column ∈ nonNulls (arrays.map KeyArray.toKeyColumn) row, column.type ≠ .list := by
    intro column hc
    obtain ⟨array, -, rfl⟩ := List.mem_map.mp (mem_nonNulls.mp hc).1
    exact fun ht => absurd ht (by simp [KeyArray.toKeyColumn])
  have haccepted : KnownTypes (arrays.map KeyArray.toKeyColumn) := by
    intro column hc
    obtain ⟨array, -, rfl⟩ := List.mem_map.mp hc
    exact fun _ ht => absurd ht (by simp [KeyArray.toKeyColumn])
  obtain ⟨written, hwritten, -, -, hconstruct⟩ := construct_eq haccepted hlist
  rw [writtenData_toKeyColumn] at hwritten
  obtain rfl := Except.ok.inj hwritten
  rw [hconstruct, exactSize_toKeyColumn, ← bind_assoc] at h
  cases halloc : (allocate 4 >>= fun _ => allocate (keySize arrays row % 2 ^ 32)) m with
  | error e m₁ =>
    rw [bind_apply_error halloc] at h
    cases h
  | ok _ m₁ =>
    rw [bind_apply_ok halloc] at h
    cases h
    refine ⟨?_, rfl⟩
    rw [comparedBytes, sizedPtrSize, genericDeleteKey, Nat.mod_mod_of_dvd _ (by norm_num)]

end IcebergCxx.Proofs
