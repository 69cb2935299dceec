import IcebergCxx.Proofs.EqualityDeleteRetry
import IcebergCxx.Proofs.EqualityDeleteLaw

/-!
# Rows that equality deletes delete

The handler keeps one delete for each set of key columns, and adds to it the rows of every file with these columns. A
row is deleted by the handler exactly when one of the files of the partition has an equal row in a layer from that of
the data on.
-/

namespace IcebergCxx.Proofs

open Lib EqualityDeleteApplier EqualityDeleteHandler

/-! ### The files -/

/-- The reader of the key columns of a delete file. -/
def deleteReader (ctx : EqualityDeleteContext) (del : EqualityDeleteInfo) : Except String RecordBatchReader := do
  let file ← ctx.openParquet del.path
  prepareRecordBatchReader file (sortUnique del.fieldIds)

/-- The calls of `Add` for the file of a delete. -/
def fileCalls (ctx : EqualityDeleteContext) (del : Int × EqualityDeleteInfo) : List AddCall :=
  ((deleteReader ctx del.2).toOption.map (fun reader => addCalls reader del.1)).getD []

/-- The calls of `Add` for all files with some key columns. -/
def keyCalls (ctx : EqualityDeleteContext) (dels : List (Int × EqualityDeleteInfo)) (key : List Int) : List AddCall :=
  (dels.filter (fun del => sortUnique del.2.fieldIds = key)).flatMap (fileCalls ctx)

/-- The file of the delete has a row that equals the row on the key columns. -/
def FileHasRow (ctx : EqualityDeleteContext) (del : EqualityDeleteInfo) (arrays : List KeyArray) (row : Nat) : Prop :=
  ∃ reader, deleteReader ctx del = .ok reader ∧
    ∃ batch ∈ reader.batches, ∃ deleted < batch.1, SameRow batch.2 deleted arrays row

/-- The columns of a field id have one type in all delete files. -/
structure KeyTyped (ctx : EqualityDeleteContext) (keyTypes : Int → KeyType) (del : EqualityDeleteInfo) : Prop where
  schema : ∀ reader, deleteReader ctx del = .ok reader → reader.schema = (sortUnique del.fieldIds).map keyTypes
  batches : ∀ reader, deleteReader ctx del = .ok reader →
    ∀ batch ∈ reader.batches, ConformsTo ((sortUnique del.fieldIds).map keyTypes) batch.2

section
variable {ctx : EqualityDeleteContext}

lemma fileCalls_of_reader {del : Int × EqualityDeleteInfo} {reader : RecordBatchReader}
    (h : deleteReader ctx del.2 = .ok reader) : fileCalls ctx del = addCalls reader del.1 := by
  unfold fileCalls
  rw [h]
  rfl

lemma mem_addedRows {calls : List AddCall} {added : List KeyArray × Nat × Int} : added ∈ addedRows calls ↔
    ∃ call ∈ calls, call.arrays = added.1 ∧ added.2.1 < call.rowsCount ∧ call.deleteLayer = added.2.2 := by
  unfold addedRows
  simp only [List.mem_flatMap, List.mem_map, List.mem_range]
  constructor
  · rintro ⟨call, hcall, row, hrow, rfl⟩
    exact ⟨call, hcall, rfl, hrow, rfl⟩
  · rintro ⟨call, hcall, harrays, hrow, hlayer⟩
    exact ⟨call, hcall, added.2.1, hrow, by rw [harrays, hlayer]⟩

/-- What the calls for one file delete. -/
lemma equalityDeleted_fileCalls {del : Int × EqualityDeleteInfo} {arrays : List KeyArray} {row : Nat}
    {dataLayer : Int} : EqualityDeleted (fileCalls ctx del) arrays row dataLayer ↔
      dataLayer ≤ del.1 ∧ FileHasRow ctx del.2 arrays row := by
  unfold EqualityDeleted FileHasRow
  simp only [mem_addedRows]
  cases hreader : deleteReader ctx del.2 with
  | error message =>
    have hcalls : fileCalls ctx del = [] := by
      unfold fileCalls
      rw [hreader]
      rfl
    simp [hcalls]
  | ok reader =>
    rw [fileCalls_of_reader hreader]
    unfold addCalls
    simp only [List.mem_map]
    constructor
    · rintro ⟨⟨added, addedRow, addedLayer⟩, ⟨call, ⟨batch, hbatch, rfl⟩, rfl, hrow, rfl⟩, hsame, hlayer⟩
      exact ⟨hlayer, reader, rfl, batch, hbatch, addedRow, hrow, hsame⟩
    · rintro ⟨hlayer, reader', hreader', batch, hbatch, deleted, hdeleted, hsame⟩
      obtain rfl := Except.ok.inj hreader'
      exact ⟨(batch.2, deleted, del.1), ⟨_, ⟨batch, hbatch, rfl⟩, rfl, hdeleted, rfl⟩, hsame, hlayer⟩

lemma equalityDeleted_flatMap {α : Type} {l : List α} {calls : α → List AddCall} {arrays : List KeyArray} {row : Nat}
    {dataLayer : Int} : EqualityDeleted (l.flatMap calls) arrays row dataLayer ↔
      ∃ a ∈ l, EqualityDeleted (calls a) arrays row dataLayer := by
  unfold EqualityDeleted
  simp only [mem_addedRows, List.mem_flatMap]
  constructor
  · rintro ⟨added, ⟨call, ⟨a, ha, hcall⟩, hadded⟩, hsame⟩
    exact ⟨a, ha, added, ⟨call, hcall, hadded⟩, hsame⟩
  · rintro ⟨a, ha, added, ⟨call, hcall, hadded⟩, hsame⟩
    exact ⟨added, ⟨call, ⟨a, ha, hcall⟩, hadded⟩, hsame⟩

/-! ### The handler -/

lemma addAll_append {del del' : EqualityDelete} {calls calls' : List AddCall} (h : del.addAll calls = .ok del') :
    del.addAll (calls ++ calls') = del'.addAll calls' := by
  unfold EqualityDelete.addAll at h ⊢
  rw [List.foldlM_append, h, ok_bind]

/-- The delete of some key columns was made for their types, and all rows of their files were added to it. -/
structure Stored (ctx : EqualityDeleteContext) (keyTypes : Int → KeyType) (dels : List (Int × EqualityDeleteInfo))
    (key : List Int) (stored : EqualityDelete) : Prop where
  made : ∃ made, makeEqualityDelete ctx.sortBy (key.map keyTypes) ctx.config.useSpecializedDeletes = .ok made ∧
    made.addAll (keyCalls ctx dels key) = .ok stored

/-- The handler has a delete for the key columns of each of the deletes. -/
structure Stores (ctx : EqualityDeleteContext) (keyTypes : Int → KeyType) (dels : List (Int × EqualityDeleteInfo))
    (handler : EqualityDeleteHandler) : Prop where
  keys : ∀ key, (handler.materializedDeletes.find? key).isSome ↔ ∃ del ∈ dels, sortUnique del.2.fieldIds = key
  stored : ∀ key stored, handler.materializedDeletes.find? key = some stored → Stored ctx keyTypes dels key stored

lemma keyCalls_append (dels : List (Int × EqualityDeleteInfo)) (del : Int × EqualityDeleteInfo) (key : List Int) :
    keyCalls ctx (dels ++ [del]) key =
      keyCalls ctx dels key ++ (if sortUnique del.2.fieldIds = key then fileCalls ctx del else []) := by
  unfold keyCalls
  rw [List.filter_append, List.flatMap_append]
  congr 1
  by_cases hkey : sortUnique del.2.fieldIds = key
  · simp [hkey]
  · simp [hkey]

lemma keyCalls_nil_of_new {dels : List (Int × EqualityDeleteInfo)} {key : List Int}
    (h : ¬∃ del ∈ dels, sortUnique del.2.fieldIds = key) : keyCalls ctx dels key = [] := by
  unfold keyCalls
  have hnone : dels.filter (fun del => sortUnique del.2.fieldIds = key) = [] := by
    rw [List.filter_eq_nil_iff]
    intro del hdel hkey
    exact h ⟨del, hdel, of_decide_eq_true hkey⟩
  rw [hnone, List.flatMap_nil]

lemma stores_append {keyTypes : Int → KeyType} {dels : List (Int × EqualityDeleteInfo)}
    {handler handler' : EqualityDeleteHandler} {del : Int × EqualityDeleteInfo} (hstores : Stores ctx keyTypes dels handler)
    (htyped : KeyTyped ctx keyTypes del.2)
    (h : handler.appendDelete ctx del.2.path del.2.fieldIds del.1 = .ok handler') :
    Stores ctx keyTypes (dels ++ [del]) handler' := by
  obtain ⟨file, hfile, h⟩ := bind_ok h
  obtain ⟨-, -, h⟩ := bind_ok h
  obtain ⟨reader, hreader, h⟩ := bind_ok h
  obtain ⟨old, hold, h⟩ := bind_ok h
  obtain ⟨added, hadded, h⟩ := bind_ok h
  cases h
  have hdeleteReader : deleteReader ctx del.2 = .ok reader := by
    unfold deleteReader
    rw [hfile, ok_bind, hreader]
  have hcalls : old.addAll (fileCalls ctx del) = .ok added := by
    rw [fileCalls_of_reader hdeleteReader]
    exact hadded
  constructor
  · intro key
    rw [OrdMap.find?_insert]
    by_cases hkey : key = sortUnique del.2.fieldIds
    · rw [if_pos hkey]
      simp [hkey]
    · rw [if_neg hkey, hstores.keys key]
      simp [Ne.symm hkey]
  · intro key stored hfind
    rw [OrdMap.find?_insert] at hfind
    by_cases hkey : key = sortUnique del.2.fieldIds
    · subst hkey
      rw [if_pos rfl] at hfind
      obtain rfl := Option.some.inj hfind
      constructor
      rw [keyCalls_append, if_pos rfl]
      cases hbefore : handler.materializedDeletes.find? (sortUnique del.2.fieldIds) with
      | none =>
        have hnew : ¬∃ before ∈ dels, sortUnique before.2.fieldIds = sortUnique del.2.fieldIds := by
          rw [← hstores.keys, hbefore]
          exact Bool.false_ne_true
        rw [hbefore] at hold
        rw [keyCalls_nil_of_new hnew, List.nil_append, ← htyped.schema reader hdeleteReader]
        exact ⟨old, hold, hcalls⟩
      | some before =>
        rw [hbefore] at hold
        obtain rfl := Except.ok.inj hold
        obtain ⟨made, hmade, hall⟩ := (hstores.stored _ _ hbefore).made
        exact ⟨made, hmade, (addAll_append hall).trans hcalls⟩
    · rw [if_neg hkey] at hfind
      constructor
      rw [keyCalls_append, if_neg (Ne.symm hkey), List.append_nil]
      exact (hstores.stored _ _ hfind).made

lemma stores_appendAll {keyTypes : Int → KeyType} {dels loaded : List (Int × EqualityDeleteInfo)}
    {handler handler' : EqualityDeleteHandler} (hstores : Stores ctx keyTypes loaded handler)
    (htyped : ∀ del ∈ dels, KeyTyped ctx keyTypes del.2) (h : appendAll ctx handler dels = .ok handler') :
    Stores ctx keyTypes (loaded ++ dels) handler' := by
  induction dels generalizing loaded handler with
  | nil =>
    obtain rfl : handler = handler' := Except.ok.inj h
    rw [List.append_nil]
    exact hstores
  | cons del dels ih =>
    unfold appendAll at h
    rw [List.foldlM_cons] at h
    obtain ⟨next, hnext, h⟩ := bind_ok h
    have hrest := ih (stores_append hstores (htyped del List.mem_cons_self) hnext)
      (fun del hdel => htyped del (List.mem_cons_of_mem _ hdel)) h
    rw [List.append_assoc, List.singleton_append] at hrest
    exact hrest

lemma stores_empty (ctx : EqualityDeleteContext) (keyTypes : Int → KeyType) : Stores ctx keyTypes [] {} where
  keys key := by simp [OrdMap.find?_empty]
  stored key stored h := by simp [OrdMap.find?_empty] at h

lemma rowsCount_pos_of_deleted {calls : List AddCall} {arrays : List KeyArray} {row : Nat} {dataLayer : Int}
    (h : EqualityDeleted calls arrays row dataLayer) : 0 < (calls.map AddCall.rowsCount).sum := by
  obtain ⟨added, hadded, -⟩ := h
  obtain ⟨call, hcall, -, hrow, -⟩ := mem_addedRows.mp hadded
  have hle := List.le_sum_of_mem (List.mem_map_of_mem (f := AddCall.rowsCount) hcall)
  omega

/-- The chosen implementation answers right where the condition on deleted nulls holds. -/
lemma chosen_isDeleted {types : List KeyType} {useSpecializedDeletes : Bool} {made stored : EqualityDelete}
    (hchosen : Chosen types useSpecializedDeletes made) {calls : List AddCall} (hall : made.addAll calls = .ok stored)
    (hcalls : ∀ call ∈ calls, ConformsTo types call.arrays)
    (hsizes : ∀ added ∈ addedRows calls, keySize added.1 added.2.1 < 2 ^ 16) {arrays : List KeyArray} {row : Nat}
    {dataLayer : Int} (hquery : ConformsTo types arrays) (hsize : keySize arrays row < 2 ^ 16)
    (hremembers : RemembersRight types useSpecializedDeletes calls arrays row dataLayer) :
    stored.isDeleted arrays row dataLayer = true ↔ EqualityDeleted calls arrays row dataLayer := by
  cases hchosen with
  | generic hg => exact generic_isDeleted hcalls hquery hsize hsizes hall
  | oneColumn hs ht hspecialized =>
    subst ht
    exact (oneColumn_isDeleted hcalls hquery hall).mpr
      ((hremembers hs (by simpa using hspecialized)).1 rfl)
  | multipleColumn hs hspecialized hlen hwidth hd hvalues hnulls =>
    exact (multipleColumn_isDeleted_iff hd hvalues hnulls hcalls hquery hall).mpr
      ((hremembers hs hspecialized).2 hlen hwidth)

/-- What the code needs of the delete files of a partition: they can be loaded, their key columns have the types of the
schema, and the rows in them are not too long for a key. -/
structure SoundEqualityDeletes (ctx : EqualityDeleteContext) (builder : FileReaderBuilder) (keyTypes : Int → KeyType)
    (partition : Int) : Prop where
  loads : ∃ handler, setDeletes ctx builder partition = .ok handler
  typed : ∀ del ∈ builder.equalityDeletes.deletesOf partition, KeyTyped ctx keyTypes del.2
  short : ∀ del ∈ builder.equalityDeletes.deletesOf partition, ∀ added ∈ addedRows (fileCalls ctx del),
    keySize added.1 added.2.1 < 2 ^ 16

lemma mem_addedRows_flatMap {α : Type} {l : List α} {calls : α → List AddCall} {added : List KeyArray × Nat × Int} :
    added ∈ addedRows (l.flatMap calls) ↔ ∃ a ∈ l, added ∈ addedRows (calls a) := by
  unfold addedRows
  rw [List.flatMap_assoc]
  exact List.mem_flatMap

/-- A handler with the deletes of a partition deletes a row exactly when one of their files has an equal row, in a layer
from that of the data on. -/
lemma stores_isDeleted_iff {keyTypes : Int → KeyType} {dels : List (Int × EqualityDeleteInfo)}
    {handler : EqualityDeleteHandler} (hstores : Stores ctx keyTypes dels handler)
    (htyped : ∀ del ∈ dels, KeyTyped ctx keyTypes del.2)
    (hshort : ∀ del ∈ dels, ∀ added ∈ addedRows (fileCalls ctx del), keySize added.1 added.2.1 < 2 ^ 16)
    {fieldIdToArray : OrdMap Int KeyArray} {dataLayer : Int} {row : Nat}
    (hquery : ∀ del ∈ dels, ConformsTo ((sortUnique del.2.fieldIds).map keyTypes)
      ((sortUnique del.2.fieldIds).filterMap fieldIdToArray.find?))
    (hsize : ∀ del ∈ dels, keySize ((sortUnique del.2.fieldIds).filterMap fieldIdToArray.find?) row < 2 ^ 16)
    (hremembers : ∀ del ∈ dels, RemembersRight ((sortUnique del.2.fieldIds).map keyTypes)
      ctx.config.useSpecializedDeletes (keyCalls ctx dels (sortUnique del.2.fieldIds))
      ((sortUnique del.2.fieldIds).filterMap fieldIdToArray.find?) row dataLayer) :
    (handler.prepareDeletesForFile dataLayer).2.isDeleted fieldIdToArray dataLayer row = true ↔
      ∃ del ∈ dels, dataLayer ≤ del.1 ∧
        FileHasRow ctx del.2 ((sortUnique del.2.fieldIds).filterMap fieldIdToArray.find?) row := by
  -- the answer of the delete of some key columns
  have hanswer : ∀ del ∈ dels, ∀ stored, handler.materializedDeletes.find? (sortUnique del.2.fieldIds) = some stored →
      (stored.isDeleted ((sortUnique del.2.fieldIds).filterMap fieldIdToArray.find?) row dataLayer = true ↔
        EqualityDeleted (keyCalls ctx dels (sortUnique del.2.fieldIds))
          ((sortUnique del.2.fieldIds).filterMap fieldIdToArray.find?) row dataLayer) ∧
      (EqualityDeleted (keyCalls ctx dels (sortUnique del.2.fieldIds))
        ((sortUnique del.2.fieldIds).filterMap fieldIdToArray.find?) row dataLayer → 0 < stored.size) := by
    intro del hdel stored hfind
    obtain ⟨made, hmade, hall⟩ := (hstores.stored _ _ hfind).made
    obtain ⟨impl, himpl, hchosen⟩ := makeEqualityDelete_chosen ctx.sortBy
      ((sortUnique del.2.fieldIds).map keyTypes) ctx.config.useSpecializedDeletes
    obtain rfl := Except.ok.inj (himpl.symm.trans hmade)
    refine ⟨chosen_isDeleted hchosen hall ?_ ?_ (hquery del hdel) (hsize del hdel) (hremembers del hdel), ?_⟩
    · intro call hcall
      obtain ⟨other, hother, hcall⟩ := List.mem_flatMap.mp hcall
      obtain ⟨hother, hkey⟩ := List.mem_filter.mp hother
      have hkey : sortUnique other.2.fieldIds = sortUnique del.2.fieldIds := of_decide_eq_true hkey
      cases hreader : deleteReader ctx other.2 with
      | error message =>
        unfold fileCalls at hcall
        rw [hreader] at hcall
        cases hcall
      | ok reader =>
        rw [fileCalls_of_reader hreader] at hcall
        obtain ⟨batch, hbatch, rfl⟩ := List.mem_map.mp hcall
        rw [← hkey]
        exact (htyped other hother).batches reader hreader batch hbatch
    · intro added hadded
      obtain ⟨other, hother, hadded⟩ := mem_addedRows_flatMap.mp hadded
      exact hshort other (List.mem_filter.mp hother).1 added hadded
    · intro hdeleted
      exact (addAll_size_pos hall).mpr (.inr (rowsCount_pos_of_deleted hdeleted))
  unfold EqualityDeleteHandler.isDeleted prepareDeletesForFile
  simp only [List.any_eq_true, List.mem_map, List.mem_filter, decide_eq_true_eq]
  constructor
  · rintro ⟨_, ⟨⟨key, stored⟩, ⟨hentry, -⟩, rfl⟩, hdeleted⟩
    have hfind := (OrdMap.mem_entries _ _ _).mp hentry
    obtain ⟨del, hdel, rfl⟩ := (hstores.keys key).mp (Option.isSome_iff_exists.mpr ⟨stored, hfind⟩)
    obtain ⟨other, hother, hfile⟩ := equalityDeleted_flatMap.mp ((hanswer del hdel stored hfind).1.mp hdeleted)
    obtain ⟨hother, hkey⟩ := List.mem_filter.mp hother
    have hkey : sortUnique other.2.fieldIds = sortUnique del.2.fieldIds := of_decide_eq_true hkey
    obtain ⟨hlayer, hrow⟩ := equalityDeleted_fileCalls.mp hfile
    rw [← hkey] at hrow
    exact ⟨other, hother, hlayer, hrow⟩
  · rintro ⟨del, hdel, hlayer, hrow⟩
    obtain ⟨stored, hfind⟩ := Option.isSome_iff_exists.mp ((hstores.keys _).mpr ⟨del, hdel, rfl⟩)
    have hdeleted : EqualityDeleted (keyCalls ctx dels (sortUnique del.2.fieldIds))
        ((sortUnique del.2.fieldIds).filterMap fieldIdToArray.find?) row dataLayer :=
      equalityDeleted_flatMap.mpr ⟨del, List.mem_filter.mpr ⟨hdel, decide_eq_true rfl⟩,
        equalityDeleted_fileCalls.mpr ⟨hlayer, hrow⟩⟩
    obtain ⟨hiff, hpos⟩ := hanswer del hdel stored hfind
    exact ⟨(stored, sortUnique del.2.fieldIds),
      ⟨(sortUnique del.2.fieldIds, stored), ⟨(OrdMap.mem_entries _ _ _).mpr hfind, hpos hdeleted⟩, rfl⟩, hiff.mpr hdeleted⟩

/-! ### Batches -/

/-- The column with a name, which must be the only one. -/
def columnNamed (columns : List (Bytes × KeyArray)) (name : Bytes) : Option KeyArray :=
  match columns.filter (fun column => column.1 = name) with
  | [column] => some column.2
  | _ => none

lemma getColumnByName_eq (batch : IcebergBatch) (name : Bytes) :
    batch.getColumnByName name = columnNamed batch.columns name := rfl

/-- The key columns of some rows. -/
def keyColumns (mapper : FieldIdMapper) (columns : List (Bytes × KeyArray)) (key : List Int) : List KeyArray :=
  key.filterMap (fun id => columnNamed columns (mapper.fieldIdToColumnName id))

/-- A file of the partition, in a layer from that of the data on, has a row that equals the row. -/
def EqualityDeletesRow (ctx : EqualityDeleteContext) (builder : FileReaderBuilder) (place : PartitionLayerFile)
    (columns : List (Bytes × KeyArray)) (row : Nat) : Prop :=
  ∃ del ∈ builder.equalityDeletes.deletesOf place.partition, place.layer ≤ del.1 ∧
    FileHasRow ctx del.2 (keyColumns builder.mapper columns (sortUnique del.2.fieldIds)) row

/-- What the code needs of the rows of a data file: the key columns of the deletes are there with the types of the
schema, the rows are not too long for a key, and the specialized deletes are right about their nulls. -/
structure ReadsKeys (ctx : EqualityDeleteContext) (builder : FileReaderBuilder) (keyTypes : Int → KeyType)
    (place : PartitionLayerFile) (columns : List (Bytes × KeyArray)) (rows : Nat) : Prop where
  read : ∀ del ∈ builder.equalityDeletes.deletesOf place.partition, ∀ id ∈ del.2.fieldIds,
    ∃ array, columnNamed columns (builder.mapper.fieldIdToColumnName id) = some array ∧ array.type = keyTypes id
  short : ∀ del ∈ builder.equalityDeletes.deletesOf place.partition, ∀ row < rows,
    keySize (keyColumns builder.mapper columns (sortUnique del.2.fieldIds)) row < 2 ^ 16
  remembers : ∀ del ∈ builder.equalityDeletes.deletesOf place.partition, ∀ row < rows,
    RemembersRight ((sortUnique del.2.fieldIds).map keyTypes) ctx.config.useSpecializedDeletes
      (keyCalls ctx (builder.equalityDeletes.deletesOf place.partition) (sortUnique del.2.fieldIds))
      (keyColumns builder.mapper columns (sortUnique del.2.fieldIds)) row place.layer

lemma makeFieldIdToArray_find {mapper : FieldIdMapper} {handler : EqualityDeleteHandler} {batch : IcebergBatch}
    {arrays : OrdMap Int KeyArray} (h : makeFieldIdToArray mapper handler batch = .ok arrays) {id : Int}
    (hid : id ∈ handler.getEqualityDeleteFieldIds) :
    arrays.find? id = columnNamed batch.columns (mapper.fieldIdToColumnName id) := by
  have hstart : ∀ id array, (∅ : OrdMap Int KeyArray).find? id = some array →
      columnNamed batch.columns (mapper.fieldIdToColumnName id) = some array := by
    intro id array hfound
    cases hfound
  have hread : id ∈ handler.getEqualityDeleteFieldIds ∨ ((∅ : OrdMap Int KeyArray).find? id).isSome = true := .inl hid
  unfold makeFieldIdToArray at h
  generalize handler.getEqualityDeleteFieldIds = ids at h hread
  generalize (∅ : OrdMap Int KeyArray) = start at h hstart hread
  induction ids generalizing start with
  | nil =>
    obtain rfl : start = arrays := Except.ok.inj h
    obtain ⟨array, harray⟩ := Option.isSome_iff_exists.mp (hread.resolve_left List.not_mem_nil)
    rw [harray, hstart id array harray]
  | cons first ids ih =>
    rw [List.foldlM_cons] at h
    obtain ⟨next, hnext, h⟩ := bind_ok h
    cases hcolumn : batch.getColumnByName (mapper.fieldIdToColumnName first) with
    | none =>
      rw [hcolumn] at hnext
      cases hnext
    | some array =>
      rw [hcolumn] at hnext
      obtain rfl := Except.ok.inj hnext
      apply ih _ h
      · intro id' array' hfound
        rw [OrdMap.find?_emplace] at hfound
        by_cases hfirst : id' = first
        · subst hfirst
          rw [if_pos rfl] at hfound
          cases hstarted : start.find? id' with
          | none =>
            rw [hstarted] at hfound
            exact hcolumn.trans hfound
          | some started =>
            rw [hstarted] at hfound
            exact (hstart id' started hstarted).trans hfound
        · rw [if_neg hfirst] at hfound
          exact hstart id' array' hfound
      · rw [OrdMap.find?_emplace]
        rcases hread with hid | hid
        · rcases List.mem_cons.mp hid with rfl | hid
          · right
            rw [if_pos rfl]
            rfl
          · exact .inl hid
        · right
          split_ifs
          · rfl
          · exact hid

lemma keyColumns_conforms {builder : FileReaderBuilder} {keyTypes : Int → KeyType} {columns : List (Bytes × KeyArray)}
    {ids : List Int} (h : ∀ id ∈ ids, ∃ array,
      columnNamed columns (builder.mapper.fieldIdToColumnName id) = some array ∧ array.type = keyTypes id) :
    ConformsTo (ids.map keyTypes) (keyColumns builder.mapper columns ids) := by
  unfold ConformsTo keyColumns
  induction ids with
  | nil => rfl
  | cons id ids ih =>
    obtain ⟨array, hcolumn, htype⟩ := h id List.mem_cons_self
    rw [List.filterMap_cons, hcolumn, List.map_cons, List.map_cons, htype,
      ih (fun id hid => h id (List.mem_cons_of_mem _ hid))]

/-- `ApplyDeletes` with all deletes of the partition takes exactly their rows away. -/
lemma applyDeletes_exact {builder : FileReaderBuilder} {keyTypes : Int → KeyType} {batch : IcebergBatch} {rows : Nat}
    (hsound : SoundEqualityDeletes ctx builder keyTypes batch.partition)
    (hkeys : ReadsKeys ctx builder keyTypes batch.toPartitionLayerFile batch.columns rows)
    (hrows : ∀ row ∈ batch.selectionVector, row < rows) {handler : EqualityDeleteHandler}
    (hset : setDeletes ctx builder batch.partition = .ok handler) :
    ∃ applier out, applyDeletes builder ⟨handler, some batch.partition⟩ batch = .ok (applier, out) ∧
      out.toPartitionLayerFile = batch.toPartitionLayerFile ∧ out.rowPosition = batch.rowPosition ∧
      out.columns = batch.columns ∧ out.selectionVector.Sublist batch.selectionVector ∧
      ∀ row, row ∈ out.selectionVector ↔ row ∈ batch.selectionVector ∧
        ¬EqualityDeletesRow ctx builder batch.toPartitionLayerFile batch.columns row := by
  have hstores : Stores ctx keyTypes (builder.equalityDeletes.deletesOf batch.partition) handler := by
    rw [setDeletes_eq] at hset
    exact stores_appendAll (stores_empty ctx keyTypes) hsound.typed hset
  have hloaded := setDeletes_loaded hset
  have hask : ∀ del ∈ builder.equalityDeletes.deletesOf batch.partition, ∀ id ∈ sortUnique del.2.fieldIds,
      id ∈ (handler.prepareDeletesForFile batch.layer).2.getEqualityDeleteFieldIds := by
    intro del hdel id hid
    exact (mem_getEqualityDeleteFieldIds (loaded_prepareDeletesForFile hloaded batch.layer) id).mpr
      ⟨del.2, List.mem_map_of_mem hdel, mem_sortUnique.mp hid⟩
  cases hprepared : (handler.prepareDeletesForFile batch.layer).1 with
  | false =>
    have happlied : applyDeletes builder ⟨handler, some batch.partition⟩ batch =
        .ok (⟨(handler.prepareDeletesForFile batch.layer).2, some batch.partition⟩, batch) := by
      unfold applyDeletes
      simp only [hprepared, Bool.false_eq_true, if_false]
    refine ⟨_, batch, happlied, rfl, rfl, rfl, .refl _, ?_⟩
    intro row
    have hnone : ¬EqualityDeletesRow ctx builder batch.toPartitionLayerFile batch.columns row := by
      rintro ⟨del, hdel, -, reader, hreader, deletedBatch, hmem, deleted, hlt, -⟩
      have hhas : HasRows ctx del.2 := by
        unfold deleteReader at hreader
        obtain ⟨file, hfile, hreader⟩ := bind_ok hreader
        refine ⟨file, hfile, ?_⟩
        rw [EqualityDeleteFile.numRows, ← prepareRecordBatchReader_rows hreader]
        have hle := List.le_sum_of_mem (List.mem_map_of_mem (f := Prod.fst) hmem)
        omega
      have hsome := (prepareDeletesForFile_iff hloaded batch.layer).mpr ⟨del.2, List.mem_map_of_mem hdel, hhas⟩
      rw [hprepared] at hsome
      cases hsome
    simp [hnone]
  | true =>
    obtain ⟨arrays, harrays⟩ : ∃ arrays, makeFieldIdToArray builder.mapper
        (handler.prepareDeletesForFile batch.layer).2 batch = .ok arrays := by
      apply makeFieldIdToArray_ok_iff.mpr
      intro id hid
      obtain ⟨info, hinfo, hmem⟩ :=
        (mem_getEqualityDeleteFieldIds (loaded_prepareDeletesForFile hloaded batch.layer) id).mp hid
      obtain ⟨del, hdel, rfl⟩ := List.mem_map.mp hinfo
      obtain ⟨array, hcolumn, -⟩ := hkeys.read del hdel id hmem
      rw [getColumnByName_eq, hcolumn]
      rfl
    have hkeyColumns : ∀ del ∈ builder.equalityDeletes.deletesOf batch.partition,
        (sortUnique del.2.fieldIds).filterMap arrays.find? =
          keyColumns builder.mapper batch.columns (sortUnique del.2.fieldIds) := by
      intro del hdel
      apply List.filterMap_congr
      intro id hid
      exact makeFieldIdToArray_find harrays (hask del hdel id hid)
    have happlied : applyDeletes builder ⟨handler, some batch.partition⟩ batch =
        .ok (⟨(handler.prepareDeletesForFile batch.layer).2, some batch.partition⟩, { batch with
          selectionVector := batch.selectionVector.filter (fun row =>
            !(handler.prepareDeletesForFile batch.layer).2.isDeleted arrays batch.layer row) }) := by
      unfold applyDeletes
      simp only [hprepared, if_true, harrays, ok_bind]
      rfl
    refine ⟨_, _, happlied, rfl, rfl, rfl, List.filter_sublist, ?_⟩
    intro row
    rw [List.mem_filter]
    refine and_congr_right (fun hrow => ?_)
    have hlt := hrows row hrow
    have hiff := @stores_isDeleted_iff ctx keyTypes _ handler hstores hsound.typed hsound.short arrays batch.layer row ?_
      ?_ ?_
    · rw [Bool.not_eq_true', ← Bool.not_eq_true, hiff, EqualityDeletesRow]
      refine not_congr (exists_congr (fun del => and_congr_right (fun hdel => and_congr_right (fun _ => ?_))))
      rw [hkeyColumns del hdel]
    · intro del hdel
      rw [hkeyColumns del hdel]
      apply keyColumns_conforms
      intro id hid
      exact hkeys.read del hdel id (mem_sortUnique.mp hid)
    · intro del hdel
      rw [hkeyColumns del hdel]
      exact hkeys.short del hdel row hlt
    · intro del hdel
      rw [hkeyColumns del hdel]
      exact hkeys.remembers del hdel row hlt

end

end IcebergCxx.Proofs
