import IcebergCxx.EqualityDeleteApplier
import IcebergCxx.Lib.Json
import IcebergCxx.Proofs.EqualityDeleteLaw
import IcebergCxx.Proofs.FieldIdMapper

/-!
# The columns that equality deletes ask for

The applier asks a batch for the key columns of every delete of its partition as soon as one of
them has a row, whatever the layers; the reader reads, beside the projection and the filter, only
those of the deletes that are not older than the data. The two agree on every run exactly when the
key columns of the older deletes are read anyway.
-/

namespace IcebergCxx.Proofs

open Lib

/-! ### The size of a materialized delete -/

/-- A counted loop whose body establishes a property has it unless it never ran. -/
lemma foldl_range_establishes {σ : Type} {P : σ → Prop} {step : σ → Nat → σ} (h : ∀ s i, P (step s i)) (n : Nat) (s : σ) :
    P ((List.range n).foldl step s) ↔ P s ∨ 0 < n := by
  cases n with
  | zero => simp
  | succ n =>
    rw [List.range_succ, List.foldl_append]
    simp [h]

lemma length_alter_pos {K V : Type} [LinearOrder K] (m : OrdMap K V) (k : K) (f : Option V → V) :
    0 < (m.alter k f).entries.length := by
  have hk : (k, f (m.find? k)) ∈ (m.alter k f).entries := by
    rw [OrdMap.mem_entries, OrdMap.find?_alter, if_pos rfl]
  exact List.length_pos_of_mem hk

lemma length_updateMax_pos {K : Type} [LinearOrder K] (m : OrdMap K Int) (k : K) (v : Int) :
    0 < (m.updateMax k v).entries.length := by
  unfold OrdMap.updateMax
  split
  · exact length_alter_pos m k _
  · exact length_alter_pos m k _

lemma oneColumn_addRow_size_pos (array : KeyArray) (layer : Int) (del : SpecializedDeleteOneColumn) (row : Nat) :
    0 < (EqualityDelete.oneColumn (del.addRow array layer row)).size := by
  unfold SpecializedDeleteOneColumn.addRow
  split_ifs with h
  · simp [EqualityDelete.size]
  · have := length_updateMax_pos del.values (array.getView row) layer
    simp only [EqualityDelete.size]
    omega

lemma multipleColumn_addRow_size_pos (arrays : List KeyArray) (layer : Int) (del : SpecializedDeleteMultipleColumn)
    (row : Nat) : 0 < (EqualityDelete.multipleColumn (del.addRow arrays layer row)).size := by
  have := length_updateMax_pos del.values (del.constructRow arrays row) layer
  simp only [EqualityDelete.size, SpecializedDeleteMultipleColumn.addRow]
  omega

lemma multipleColumn_addRowWithNulls_size_pos (arrays : List KeyArray) (layer : Int)
    (del : SpecializedDeleteMultipleColumn) (row : Nat) :
    0 < (EqualityDelete.multipleColumn (del.addRowWithNulls arrays layer row)).size := by
  unfold SpecializedDeleteMultipleColumn.addRowWithNulls
  dsimp only
  set mask := del.nullsMask arrays row
  set key := del.constructRowIgnoreNulls arrays row
  split_ifs with h
  · have := length_updateMax_pos del.values key layer
    simp only [EqualityDelete.size]
    omega
  · -- the map of this null mask has the row's key, so its length counts
    set values := (del.valuesWithNulls.find? mask).getD {}
    have hmem : (mask, values.updateMax key layer) ∈
        (del.valuesWithNulls.alter mask (fun o => (o.getD {}).updateMax key layer)).entries := by
      rw [OrdMap.mem_entries, OrdMap.find?_alter, if_pos rfl]
    have hlen : (values.updateMax key layer).entries.length ∈
        (del.valuesWithNulls.alter mask (fun o => (o.getD {}).updateMax key layer)).values.map
          (fun values => values.entries.length) :=
      List.mem_map_of_mem (List.mem_map_of_mem hmem)
    have hle := List.single_le_sum (fun _ _ => Nat.zero_le _) _ hlen
    have hpos := length_updateMax_pos values key layer
    simp only [EqualityDelete.size]
    omega

/-- A delete has a row once a batch with a row was added to it. -/
lemma add_size_pos {del del' : EqualityDelete} {arrays : List KeyArray} {rows : Nat} {layer : Int}
    (h : del.add arrays rows layer = .ok del') : 0 < del'.size ↔ 0 < del.size ∨ 0 < rows := by
  cases del with
  | generic del =>
    simp only [EqualityDelete.add, GenericEqualityDelete.add] at h
    cases hc : ensure (decide (arrays.length ≤ 64)) "GenericEqualityDelete is not implemented for more than 64 columns" with
    | error e => rw [hc] at h; cases h
    | ok u =>
      rw [hc] at h
      cases h
      exact @foldl_range_establishes _ (fun values : OrdMap Bytes Int => 0 < values.entries.length) _
        (fun values row => length_updateMax_pos values (genericDeleteKey arrays row) layer) _ del.values
  | oneColumn del =>
    simp only [EqualityDelete.add, SpecializedDeleteOneColumn.add] at h
    split at h
    · rename_i array
      by_cases ht : array.type ≠ del.type
      · rw [if_pos ht] at h
        cases h
      · rw [if_neg ht] at h
        cases h
        exact @foldl_range_establishes _ (fun del => 0 < (EqualityDelete.oneColumn del).size) _
          (fun del row => oneColumn_addRow_size_pos _ layer del row) _ del
    · cases h
  | multipleColumn del =>
    simp only [EqualityDelete.add] at h
    cases hadd : del.add arrays rows layer with
    | error e => rw [hadd] at h; cases h
    | ok added =>
      rw [hadd] at h
      cases h
      unfold SpecializedDeleteMultipleColumn.add at hadd
      obtain ⟨-, -, hadd⟩ := bind_ok hadd
      obtain ⟨-, -, hadd⟩ := bind_ok hadd
      split_ifs at hadd
      · cases hadd
        exact @foldl_range_establishes _ (fun del => 0 < (EqualityDelete.multipleColumn del).size) _
          (fun del row => multipleColumn_addRow_size_pos arrays layer del row) _ del
      · obtain ⟨-, -, hadd⟩ := bind_ok hadd
        cases hadd
        exact @foldl_range_establishes _ (fun del => 0 < (EqualityDelete.multipleColumn del).size) _
          (fun del row => multipleColumn_addRowWithNulls_size_pos arrays layer del row) _ del

lemma addAll_size_pos {calls : List AddCall} {del del' : EqualityDelete} (h : del.addAll calls = .ok del') :
    0 < del'.size ↔ 0 < del.size ∨ 0 < (calls.map AddCall.rowsCount).sum := by
  induction calls generalizing del with
  | nil => cases h; simp
  | cons call calls ih =>
    unfold EqualityDelete.addAll at h
    rw [List.foldlM_cons] at h
    obtain ⟨del₁, h1, h⟩ := bind_ok h
    rw [ih h, add_size_pos h1, List.map_cons, List.sum_cons]
    omega

lemma makeEqualityDelete_size {sortBy : ∀ width : Nat → Nat, DescendingSort width} {types : List KeyType} {b : Bool}
    {del : EqualityDelete} (h : makeEqualityDelete sortBy types b = .ok del) : del.size = 0 := by
  obtain ⟨impl, himpl, hchosen⟩ := makeEqualityDelete_chosen sortBy types b
  rw [himpl] at h
  cases h
  cases hchosen with
  | generic h => rfl
  | oneColumn hs ht hall => rfl
  | multipleColumn hs hall hlen hwidth hd hvalues hnulls =>
    simp only [EqualityDelete.size, hvalues, hnulls]
    rfl

/-! ### The deletes of a partition -/

/-- A delete file that has a row. -/
def HasRows (ctx : EqualityDeleteContext) (del : EqualityDeleteInfo) : Prop :=
  ∃ file, ctx.openParquet del.path = .ok file ∧ 0 < file.numRows

lemma mem_sortUnique {l : List Int} {id : Int} : id ∈ sortUnique l ↔ id ∈ l := by
  rw [sortUnique, List.mem_dedup, List.mem_insertionSort]

lemma nodup_sortUnique (l : List Int) : (sortUnique l).Nodup := List.nodup_dedup _

lemma prepareRecordBatchReader_rows {file : EqualityDeleteFile} {fieldIds : List Int} {reader : RecordBatchReader}
    (h : prepareRecordBatchReader file fieldIds = .ok reader) :
    reader.batches.map Prod.fst = file.batches.map Prod.fst := by
  obtain ⟨positions, -, h⟩ := bind_ok h
  cases h
  simp [List.map_map, Function.comp_def]

/-- What an appended delete leaves behind: one entry, with a row if it had one or the file has. -/
lemma appendDelete_spec {ctx : EqualityDeleteContext} {handler handler' : EqualityDeleteHandler}
    {del : EqualityDeleteInfo} {layer : Int} (h : handler.appendDelete ctx del.path del.fieldIds layer = .ok handler') :
    ∃ stored, handler'.materializedDeletes = handler.materializedDeletes.insert (sortUnique del.fieldIds) stored ∧
      (0 < stored.size ↔
        (∃ old, handler.materializedDeletes.find? (sortUnique del.fieldIds) = some old ∧ 0 < old.size) ∨
          HasRows ctx del) := by
  obtain ⟨file, hfile, h⟩ := bind_ok h
  obtain ⟨-, -, h⟩ := bind_ok h
  obtain ⟨reader, hreader, h⟩ := bind_ok h
  obtain ⟨old, hold, h⟩ := bind_ok h
  obtain ⟨stored, hstored, h⟩ := bind_ok h
  cases h
  refine ⟨stored, rfl, ?_⟩
  have hrows : ((reader.batches.map (fun batch => (⟨batch.2, batch.1, layer⟩ : AddCall))).map
      AddCall.rowsCount).sum = file.numRows := by
    rw [EqualityDeleteFile.numRows, ← prepareRecordBatchReader_rows hreader, List.map_map]
    rfl
  have hhas : HasRows ctx del ↔ 0 < file.numRows := by
    constructor
    · rintro ⟨file', hfile', hpos⟩
      rw [hfile] at hfile'
      cases hfile'
      exact hpos
    · exact fun hpos => ⟨file, hfile, hpos⟩
  rw [addAll_size_pos hstored, hrows, hhas]
  cases hfind : handler.materializedDeletes.find? (sortUnique del.fieldIds) with
  | none =>
    rw [hfind] at hold
    have := makeEqualityDelete_size hold
    simp [this]
  | some d =>
    rw [hfind] at hold
    cases hold
    simp

/-- The handler holds the deletes: an entry for each set of key columns, with a row if one of its
files has. -/
structure Loaded (ctx : EqualityDeleteContext) (dels : List EqualityDeleteInfo) (handler : EqualityDeleteHandler) :
    Prop where
  keys : ∀ k, (handler.materializedDeletes.find? k).isSome ↔ ∃ del ∈ dels, sortUnique del.fieldIds = k
  sizes : ∀ k stored, handler.materializedDeletes.find? k = some stored →
    (0 < stored.size ↔ ∃ del ∈ dels, sortUnique del.fieldIds = k ∧ HasRows ctx del)

lemma loaded_nil (ctx : EqualityDeleteContext) : Loaded ctx [] {} where
  keys k := by simp [OrdMap.find?_empty]
  sizes k stored h := by simp [OrdMap.find?_empty] at h

lemma loaded_append {ctx : EqualityDeleteContext} {dels : List EqualityDeleteInfo}
    {handler handler' : EqualityDeleteHandler} {del : EqualityDeleteInfo} {layer : Int} (hl : Loaded ctx dels handler)
    (h : handler.appendDelete ctx del.path del.fieldIds layer = .ok handler') : Loaded ctx (dels ++ [del]) handler' := by
  obtain ⟨stored, hmap, hsize⟩ := appendDelete_spec h
  constructor
  · intro k
    rw [hmap, OrdMap.find?_insert]
    by_cases hk : k = sortUnique del.fieldIds
    · rw [if_pos hk]
      simp [hk]
    · rw [if_neg hk, hl.keys k]
      simp [Ne.symm hk]
  · intro k stored' hfind
    rw [hmap, OrdMap.find?_insert] at hfind
    by_cases hk : k = sortUnique del.fieldIds
    · subst hk
      rw [if_pos rfl] at hfind
      cases hfind
      have hold : (∃ old, handler.materializedDeletes.find? (sortUnique del.fieldIds) = some old ∧ 0 < old.size) ↔
          ∃ d ∈ dels, sortUnique d.fieldIds = sortUnique del.fieldIds ∧ HasRows ctx d := by
        constructor
        · rintro ⟨old, hold, hpos⟩
          exact (hl.sizes _ old hold).mp hpos
        · rintro ⟨d, hd, hkey, hrows⟩
          obtain ⟨old, hold⟩ := Option.isSome_iff_exists.mp ((hl.keys (sortUnique del.fieldIds)).mpr ⟨d, hd, hkey⟩)
          exact ⟨old, hold, (hl.sizes _ old hold).mpr ⟨d, hd, hkey, hrows⟩⟩
      rw [hsize, hold]
      simp only [List.mem_append, List.mem_singleton, or_and_right, exists_or, exists_eq_left, true_and]
    · rw [if_neg hk] at hfind
      rw [hl.sizes k stored' hfind]
      simp only [List.mem_append, List.mem_singleton, or_and_right, exists_or, exists_eq_left, Ne.symm hk, false_and,
        or_false]

lemma loaded_foldlM {ctx : EqualityDeleteContext} {l : List (Int × EqualityDeleteInfo)} {dels : List EqualityDeleteInfo}
    {handler handler' : EqualityDeleteHandler} (hl : Loaded ctx dels handler)
    (h : l.foldlM (fun handler (layerId, del) => handler.appendDelete ctx del.path del.fieldIds layerId) handler =
      .ok handler') : Loaded ctx (dels ++ l.map Prod.snd) handler' := by
  induction l generalizing dels handler with
  | nil => cases h; simpa using hl
  | cons d l ih =>
    rw [List.foldlM_cons] at h
    obtain ⟨handler₁, h1, h⟩ := bind_ok h
    have := ih (loaded_append hl h1) h
    simpa [List.append_assoc] using this

lemma setDeletes_loaded {ctx : EqualityDeleteContext} {builder : FileReaderBuilder} {partition : Int}
    {handler : EqualityDeleteHandler} (h : EqualityDeleteApplier.setDeletes ctx builder partition = .ok handler) :
    Loaded ctx ((builder.equalityDeletes.deletesOf partition).map Prod.snd) handler := by
  simpa using loaded_foldlM (loaded_nil ctx) h

/-- Something is asked for as soon as one delete of the partition has a row. -/
lemma prepareDeletesForFile_iff {ctx : EqualityDeleteContext} {dels : List EqualityDeleteInfo}
    {handler : EqualityDeleteHandler} (hl : Loaded ctx dels handler) (dataLayer : Int) :
    (handler.prepareDeletesForFile dataLayer).1 = true ↔ ∃ del ∈ dels, HasRows ctx del := by
  have hne : (handler.prepareDeletesForFile dataLayer).1 = true ↔
      ∃ entry ∈ handler.materializedDeletes.entries, 0 < entry.2.size := by
    simp [EqualityDeleteHandler.prepareDeletesForFile, List.filter_eq_nil_iff, Nat.pos_iff_ne_zero]
  rw [hne]
  constructor
  · rintro ⟨⟨k, stored⟩, hmem, hpos⟩
    obtain ⟨del, hdel, -, hrows⟩ := (hl.sizes k stored ((OrdMap.mem_entries _ _ _).mp hmem)).mp hpos
    exact ⟨del, hdel, hrows⟩
  · rintro ⟨del, hdel, hrows⟩
    obtain ⟨stored, hfind⟩ := Option.isSome_iff_exists.mp ((hl.keys (sortUnique del.fieldIds)).mpr ⟨del, hdel, rfl⟩)
    exact ⟨(sortUnique del.fieldIds, stored), (OrdMap.mem_entries _ _ _).mpr hfind,
      (hl.sizes _ stored hfind).mpr ⟨del, hdel, rfl, hrows⟩⟩

/-- What is asked for: the key columns of all deletes of the partition, of any layer. -/
lemma mem_getEqualityDeleteFieldIds {ctx : EqualityDeleteContext} {dels : List EqualityDeleteInfo}
    {handler : EqualityDeleteHandler} (hl : Loaded ctx dels handler) (id : Int) :
    id ∈ handler.getEqualityDeleteFieldIds ↔ ∃ del ∈ dels, id ∈ del.fieldIds := by
  rw [EqualityDeleteHandler.getEqualityDeleteFieldIds, List.mem_dedup, List.mem_flatten]
  constructor
  · rintro ⟨k, hk, hid⟩
    obtain ⟨del, hdel, rfl⟩ := (hl.keys k).mp ((OrdMap.mem_keys _ _).mp hk)
    exact ⟨del, hdel, mem_sortUnique.mp hid⟩
  · rintro ⟨del, hdel, hid⟩
    exact ⟨sortUnique del.fieldIds, (OrdMap.mem_keys _ _).mpr ((hl.keys _).mpr ⟨del, hdel, rfl⟩), mem_sortUnique.mpr hid⟩

/-! ### Looking up a column -/

lemma nodup_fieldIdsRead (builder : FileReaderBuilder) (file : PartitionLayerFile) :
    (builder.fieldIdsRead file).Nodup := by
  rw [FileReaderBuilder.fieldIdsRead, List.nodup_append]
  refine ⟨(nodup_sortUnique _).filter _, nodup_sortUnique _, ?_⟩
  intro a ha b hb hab
  have hna := (List.mem_filter.mp ha).2
  rw [hab] at hna
  simp only [decide_eq_true_eq] at hna
  exact hna hb

lemma mem_fieldIdsRead {builder : FileReaderBuilder} {file : PartitionLayerFile} {id : Int} :
    id ∈ builder.fieldIdsRead file ↔
      id ∈ builder.fieldIdsToRetrieve ∨ id ∈ builder.rowFilterFieldIds ∨
        ∃ del ∈ builder.equalityDeletes.deletesOf file.partition, ¬ del.1 < file.layer ∧ id ∈ del.2.fieldIds := by
  have hfilter : id ∈ builder.fieldIdsForFilter ↔ id ∈ builder.rowFilterFieldIds := mem_sortUnique
  have hrequired : id ∈ builder.fieldIdsRequired file ↔ id ∈ builder.fieldIdsToRetrieve ∨
      ∃ del ∈ builder.equalityDeletes.deletesOf file.partition, ¬ del.1 < file.layer ∧ id ∈ del.2.fieldIds := by
    rw [FileReaderBuilder.fieldIdsRequired, mem_sortUnique, List.mem_append, EqualityDeletes.getFieldIds, mem_sortUnique,
      List.mem_flatMap]
    simp only [List.mem_filter, decide_eq_true_eq, and_assoc]
  rw [FileReaderBuilder.fieldIdsRead, List.mem_append, FileReaderBuilder.fieldIdsForData, List.mem_filter, hrequired,
    decide_eq_true_eq, hfilter]
  by_cases hf : id ∈ builder.rowFilterFieldIds
  · simp only [hf, not_true, and_false, or_true, true_or]
  · simp only [hf, not_false_eq_true, and_true, or_false, false_or]

/-- The columns of a batch with the name of a field id that was read. -/
lemma getColumnByName_makeBatch {builder : FileReaderBuilder} {file : PartitionLayerFile} {data : DataBatch} {id : Int}
    (hid : id ∈ builder.fieldIdsRead file) :
    ((builder.makeBatch file data).getColumnByName (builder.mapper.fieldIdToColumnName id)).isSome ↔
      ∀ id' ∈ builder.fieldIdsRead file,
        builder.mapper.fieldIdToColumnName id' = builder.mapper.fieldIdToColumnName id → id' = id := by
  set name := builder.mapper.fieldIdToColumnName with hname
  set same := (builder.fieldIdsRead file).filter (fun id' => name id' = name id) with hsame
  have hmem : ∀ id', id' ∈ same ↔ id' ∈ builder.fieldIdsRead file ∧ name id' = name id := by
    intro id'
    rw [hsame, List.mem_filter, decide_eq_true_eq]
  have hnodup : same.Nodup := (nodup_fieldIdsRead builder file).filter _
  have hcolumns : (builder.makeBatch file data).columns.filter (fun column => column.1 = name id) =
      same.map (fun id' => (name id', data.arrays id')) := by
    rw [FileReaderBuilder.makeBatch, List.filter_map]
    rfl
  have hsome : ((builder.makeBatch file data).getColumnByName (name id)).isSome ↔ same.length = 1 := by
    unfold IcebergBatch.getColumnByName
    rw [hcolumns]
    match same with
    | [] => simp
    | [_] => simp
    | _ :: _ :: _ => simp
  rw [hsome]
  constructor
  · intro hlen id' hid' heq
    obtain ⟨only, honly⟩ := List.length_eq_one_iff.mp hlen
    have h1 : id' ∈ same := (hmem id').mpr ⟨hid', heq⟩
    have h2 : id ∈ same := (hmem id).mpr ⟨hid, rfl⟩
    rw [honly, List.mem_singleton] at h1 h2
    rw [h1, h2]
  · intro hall
    have hperm : same.Perm [id] := by
      rw [List.perm_ext_iff_of_nodup hnodup (List.nodup_singleton id)]
      intro id'
      rw [hmem, List.mem_singleton]
      constructor
      · rintro ⟨hid', heq⟩
        exact hall id' hid' heq
      · intro h
        rw [h]
        exact ⟨hid, rfl⟩
    exact hperm.length_eq

lemma makeFieldIdToArray_ok_iff {mapper : FieldIdMapper} {handler : EqualityDeleteHandler} {batch : IcebergBatch} :
    (∃ arrays, EqualityDeleteApplier.makeFieldIdToArray mapper handler batch = .ok arrays) ↔
      ∀ id ∈ handler.getEqualityDeleteFieldIds,
        (batch.getColumnByName (mapper.fieldIdToColumnName id)).isSome := by
  unfold EqualityDeleteApplier.makeFieldIdToArray
  generalize handler.getEqualityDeleteFieldIds = ids
  generalize (∅ : OrdMap Int KeyArray) = start
  induction ids generalizing start with
  | nil => exact ⟨fun _ id hid => absurd hid List.not_mem_nil, fun _ => ⟨start, rfl⟩⟩
  | cons id ids ih =>
    rw [List.foldlM_cons, List.forall_mem_cons]
    cases hcol : batch.getColumnByName (mapper.fieldIdToColumnName id) with
    | none => simp
    | some array =>
      simp only [ok_bind, Option.isSome_some, true_and]
      exact ih _

/-! ### Runs -/

/-- The deletes that an applier holds are those of its current partition. -/
def HoldsPartition (ctx : EqualityDeleteContext) (builder : FileReaderBuilder) (applier : EqualityDeleteApplier) : Prop :=
  ∀ partition, applier.currentState = some partition →
    (∃ handler, EqualityDeleteApplier.setDeletes ctx builder partition = .ok handler) ∧
      Loaded ctx ((builder.equalityDeletes.deletesOf partition).map Prod.snd) applier.equalityDeleteHandler

lemma changePartition_spec {ctx : EqualityDeleteContext} {builder : FileReaderBuilder}
    {applier applier' : EqualityDeleteApplier} {partition : Int} (hinv : HoldsPartition ctx builder applier)
    (h : applier.changePartition ctx builder partition = .ok applier') :
    applier'.currentState = some partition ∧ HoldsPartition ctx builder applier' := by
  unfold EqualityDeleteApplier.changePartition at h
  by_cases hp : applier.currentState = some partition
  · rw [if_pos hp] at h
    cases h
    exact ⟨hp, hinv⟩
  · rw [if_neg hp] at h
    obtain ⟨handler, hset, h⟩ := bind_ok h
    cases h
    refine ⟨rfl, ?_⟩
    intro p hp'
    cases hp'
    exact ⟨⟨handler, hset⟩, setDeletes_loaded hset⟩

/-- Preparing a file does not change what is materialized. -/
lemma loaded_prepareDeletesForFile {ctx : EqualityDeleteContext} {dels : List EqualityDeleteInfo}
    {handler : EqualityDeleteHandler} (hl : Loaded ctx dels handler) (dataLayer : Int) :
    Loaded ctx dels (handler.prepareDeletesForFile dataLayer).2 :=
  ⟨hl.keys, hl.sizes⟩

lemma readNext_holdsPartition {ctx : EqualityDeleteContext} {builder : FileReaderBuilder}
    {applier applier' : EqualityDeleteApplier} {batch batch' : IcebergBatch} (hinv : HoldsPartition ctx builder applier)
    (h : applier.readNext ctx builder batch = .ok (applier', batch')) : HoldsPartition ctx builder applier' := by
  obtain ⟨applier₁, h1, h⟩ := bind_ok h
  obtain ⟨-, hinv₁⟩ := changePartition_spec hinv h1
  have happlier : applier' = { applier₁ with
      equalityDeleteHandler := (applier₁.equalityDeleteHandler.prepareDeletesForFile batch.layer).2 } := by
    unfold EqualityDeleteApplier.applyDeletes at h
    dsimp only at h
    split_ifs at h
    · obtain ⟨arrays, -, h⟩ := bind_ok h
      cases h
      rfl
    · cases h
      rfl
  rw [happlier]
  intro partition hp
  obtain ⟨hset, hl⟩ := hinv₁ partition hp
  exact ⟨hset, loaded_prepareDeletesForFile hl batch.layer⟩

lemma readAll_holdsPartition {ctx : EqualityDeleteContext} {builder : FileReaderBuilder} {batches : List IcebergBatch}
    {applier applier' : EqualityDeleteApplier} (hinv : HoldsPartition ctx builder applier)
    (h : applier.readAll ctx builder batches = .ok applier') : HoldsPartition ctx builder applier' := by
  induction batches generalizing applier with
  | nil => cases h; exact hinv
  | cons batch batches ih =>
    unfold EqualityDeleteApplier.readAll at h
    rw [List.foldlM_cons] at h
    obtain ⟨applier₁, h1, h⟩ := bind_ok h
    obtain ⟨⟨applier₂, batch'⟩, h2, h1⟩ := bind_ok h1
    cases h1
    exact ih (readNext_holdsPartition hinv h2) h

/-- Whatever has been read before, a batch of one of the files is asked only for field ids that
were read of its file, and finds a column for each. -/
def ColumnsAlwaysRead (ctx : EqualityDeleteContext) (builder : FileReaderBuilder) (files : List PartitionLayerFile) :
    Prop :=
  ∀ (before : List (PartitionLayerFile × DataBatch)) (file : PartitionLayerFile) (data : DataBatch)
    (applier applier' : EqualityDeleteApplier),
    (∀ read ∈ before, read.1 ∈ files) → file ∈ files →
    EqualityDeleteApplier.readAll ctx builder {} (before.map (fun read => builder.makeBatch read.1 read.2)) = .ok applier →
    applier.changePartition ctx builder file.partition = .ok applier' →
    (applier'.equalityDeleteHandler.prepareDeletesForFile file.layer).1 = true →
    (∀ id ∈ (applier'.equalityDeleteHandler.prepareDeletesForFile file.layer).2.getEqualityDeleteFieldIds,
      id ∈ builder.fieldIdsRead file) ∧
    ∃ arrays, EqualityDeleteApplier.makeFieldIdToArray builder.mapper
      (applier'.equalityDeleteHandler.prepareDeletesForFile file.layer).2 (builder.makeBatch file data) = .ok arrays

/-- If the deletes of the file's partition can be loaded and one of them has a row, the key columns
of those older than the file are in the projection, the filter or the key of a delete that is not
older, and no other column that is read has the name of a key column. -/
def ColumnsCovered (ctx : EqualityDeleteContext) (builder : FileReaderBuilder) (file : PartitionLayerFile) : Prop :=
  (∃ handler, EqualityDeleteApplier.setDeletes ctx builder file.partition = .ok handler) →
  (∃ del ∈ builder.equalityDeletes.deletesOf file.partition, HasRows ctx del.2) →
  ∀ del ∈ builder.equalityDeletes.deletesOf file.partition, ∀ id ∈ del.2.fieldIds,
    (del.1 < file.layer →
      id ∈ builder.fieldIdsToRetrieve ∨ id ∈ builder.rowFilterFieldIds ∨
        ∃ newer ∈ builder.equalityDeletes.deletesOf file.partition, ¬ newer.1 < file.layer ∧ id ∈ newer.2.fieldIds) ∧
    ∀ id' ∈ builder.fieldIdsRead file,
      builder.mapper.fieldIdToColumnName id' = builder.mapper.fieldIdToColumnName id → id' = id

lemma holdsPartition_start (ctx : EqualityDeleteContext) (builder : FileReaderBuilder) :
    HoldsPartition ctx builder {} :=
  fun partition hp => by cases hp

/-- A covered key column of any layer is read. -/
lemma mem_fieldIdsRead_of_covered {builder : FileReaderBuilder} {file : PartitionLayerFile}
    {del : Int × EqualityDeleteInfo} {id : Int} (hdel : del ∈ builder.equalityDeletes.deletesOf file.partition)
    (hid : id ∈ del.2.fieldIds)
    (h : del.1 < file.layer → id ∈ builder.fieldIdsToRetrieve ∨ id ∈ builder.rowFilterFieldIds ∨
      ∃ newer ∈ builder.equalityDeletes.deletesOf file.partition, ¬ newer.1 < file.layer ∧ id ∈ newer.2.fieldIds) :
    id ∈ builder.fieldIdsRead file := by
  rw [mem_fieldIdsRead]
  by_cases hold : del.1 < file.layer
  · exact h hold
  · exact .inr (.inr ⟨del, hdel, hold, hid⟩)

lemma columnsAlwaysRead_of_covered {ctx : EqualityDeleteContext} {builder : FileReaderBuilder}
    {files : List PartitionLayerFile} (hcovered : ∀ file ∈ files, ColumnsCovered ctx builder file) :
    ColumnsAlwaysRead ctx builder files := by
  intro before file data applier applier' _ hfile hread hchange hprepared
  have hinv := readAll_holdsPartition (holdsPartition_start ctx builder) hread
  obtain ⟨hstate, hinv'⟩ := changePartition_spec hinv hchange
  obtain ⟨hset, hloaded⟩ := hinv' file.partition hstate
  obtain ⟨info, hinfo, hrows⟩ := (prepareDeletesForFile_iff hloaded file.layer).mp hprepared
  obtain ⟨del, hdel, rfl⟩ := List.mem_map.mp hinfo
  have hcov := hcovered file hfile hset ⟨del, hdel, hrows⟩
  have hloaded' := loaded_prepareDeletesForFile hloaded file.layer
  -- an asked id belongs to some delete of the partition, which is covered
  have hasked : ∀ id ∈ (applier'.equalityDeleteHandler.prepareDeletesForFile file.layer).2.getEqualityDeleteFieldIds,
      id ∈ builder.fieldIdsRead file ∧ ∀ id' ∈ builder.fieldIdsRead file,
        builder.mapper.fieldIdToColumnName id' = builder.mapper.fieldIdToColumnName id → id' = id := by
    intro id hid
    obtain ⟨info', hinfo', hmem⟩ := (mem_getEqualityDeleteFieldIds hloaded' id).mp hid
    obtain ⟨del', hdel', rfl⟩ := List.mem_map.mp hinfo'
    obtain ⟨hread', hnames⟩ := hcov del' hdel' id hmem
    exact ⟨mem_fieldIdsRead_of_covered hdel' hmem hread', hnames⟩
  refine ⟨fun id hid => (hasked id hid).1, makeFieldIdToArray_ok_iff.mpr ?_⟩
  intro id hid
  obtain ⟨hmem, hnames⟩ := hasked id hid
  exact (getColumnByName_makeBatch hmem).mpr hnames

/-- A file that is not covered fails in a scan that reads it first. -/
lemma covered_of_columnsAlwaysRead {ctx : EqualityDeleteContext} {builder : FileReaderBuilder}
    {files : List PartitionLayerFile} (h : ColumnsAlwaysRead ctx builder files) {file : PartitionLayerFile}
    (hfile : file ∈ files) : ColumnsCovered ctx builder file := by
  rintro ⟨handler, hset⟩ ⟨del, hdel, hrows⟩ del' hdel' id hid
  have hloaded := setDeletes_loaded hset
  have hchange : EqualityDeleteApplier.changePartition ctx builder {} file.partition =
      .ok { equalityDeleteHandler := handler, currentState := some file.partition } := by
    unfold EqualityDeleteApplier.changePartition
    rw [if_neg (by simp), hset]
    rfl
  have hprepared : (handler.prepareDeletesForFile file.layer).1 = true :=
    (prepareDeletesForFile_iff hloaded file.layer).mpr ⟨del.2, List.mem_map_of_mem hdel, hrows⟩
  obtain ⟨hread, harrays⟩ := h [] file ⟨0, fun _ => default, []⟩ {} _ (by simp) hfile rfl hchange hprepared
  have hasked : id ∈ (handler.prepareDeletesForFile file.layer).2.getEqualityDeleteFieldIds :=
    (mem_getEqualityDeleteFieldIds (loaded_prepareDeletesForFile hloaded file.layer) id).mpr
      ⟨del'.2, List.mem_map_of_mem hdel', hid⟩
  have hmem := hread id hasked
  refine ⟨fun _ => mem_fieldIdsRead.mp hmem, ?_⟩
  exact (getColumnByName_makeBatch hmem).mp (makeFieldIdToArray_ok_iff.mp harrays id hasked)

/-- Equality deletes ask only for columns that are read, in every order of the files, exactly when
every file is covered. -/
theorem columnsAlwaysRead_iff (ctx : EqualityDeleteContext) (builder : FileReaderBuilder)
    (files : List PartitionLayerFile) :
    ColumnsAlwaysRead ctx builder files ↔ ∀ file ∈ files, ColumnsCovered ctx builder file :=
  ⟨fun h _ hfile => covered_of_columnsAlwaysRead h hfile, columnsAlwaysRead_of_covered⟩

/-- With distinct names, the older deletes alone decide. -/
theorem columnsAlwaysRead_iff_of_distinctNames (ctx : EqualityDeleteContext) (builder : FileReaderBuilder)
    (files : List PartitionLayerFile) (hnames : builder.mapper.usedNames.Nodup) :
    ColumnsAlwaysRead ctx builder files ↔ ∀ file ∈ files,
      (∃ handler, EqualityDeleteApplier.setDeletes ctx builder file.partition = .ok handler) →
      (∃ del ∈ builder.equalityDeletes.deletesOf file.partition, HasRows ctx del.2) →
      ∀ del ∈ builder.equalityDeletes.deletesOf file.partition, del.1 < file.layer → ∀ id ∈ del.2.fieldIds,
        id ∈ builder.fieldIdsToRetrieve ∨ id ∈ builder.rowFilterFieldIds ∨
          ∃ newer ∈ builder.equalityDeletes.deletesOf file.partition, ¬ newer.1 < file.layer ∧ id ∈ newer.2.fieldIds := by
  constructor
  · intro h file hfile hset hrows del hdel hold id hid
    exact (covered_of_columnsAlwaysRead h hfile hset hrows del hdel id hid).1 hold
  · intro h
    apply columnsAlwaysRead_of_covered
    intro file hfile hset hrows del hdel id hid
    exact ⟨fun hold => h file hfile hset hrows del hdel hold id hid,
      fun id' _ heq => fieldIdToColumnName_injective hnames heq⟩

/-! ### A file newer than a delete -/

lemma fiveSlot_fits : ∀ slot ∈ [(⟨false, [5, 0, 0, 0]⟩ : KeySlot)], ∀ width, KeyType.int32.byteWidth = some width →
    slot.view.length = width := by
  decide

/-- A delete file with one column, of field id 2, and one row. -/
def deleteOnSecond : EqualityDeleteFile where
  columns := [(2, .int32)]
  batches := [(1, [⟨.int32, [⟨false, [5, 0, 0, 0]⟩], fiveSlot_fits⟩])]

def deleteOnSecondContext : EqualityDeleteContext where
  sortBy := insertionSortBy
  config := ⟨1000, true⟩
  openParquet _ := .ok deleteOnSecond

/-- The projection is the first column; partition 0 has a delete on the second, in layer 1. -/
def projectFirst : FileReaderBuilder where
  fieldIdsToRetrieve := [1]
  rowFilterFieldIds := []
  equalityDeletes := ⟨⟨[(0, ⟨[(1, [⟨bytes "del.parquet", [2]⟩])], by simp⟩)], by simp⟩⟩
  mapper := .ofSchema
    { schemaId := 0
      columns := [{ name := bytes "a", fieldId := 1, type := .int }, { name := bytes "b", fieldId := 2, type := .int }] }

def newerFile : PartitionLayerFile := ⟨0, 2, bytes "data.parquet"⟩

/-- A data file of layer 2, which the delete does not even concern, is asked for the second column. -/
theorem newerFile_notRead : ¬ ColumnsAlwaysRead deleteOnSecondContext projectFirst [newerFile] := by
  intro h
  have hcovered := covered_of_columnsAlwaysRead h (List.mem_singleton.mpr rfl)
  have hdel : (1, ⟨bytes "del.parquet", [2]⟩) ∈ projectFirst.equalityDeletes.deletesOf newerFile.partition := by
    decide +kernel
  obtain ⟨hread, -⟩ := hcovered ⟨_, rfl⟩ ⟨_, hdel, deleteOnSecond, rfl, by decide⟩ _ hdel 2 (by simp)
  rcases hread (by decide) with h1 | h1 | ⟨newer, hmem, hlayer, -⟩
  · exact absurd h1 (by decide)
  · exact absurd h1 (by decide)
  · have honly : newer = (1, ⟨bytes "del.parquet", [2]⟩) := by
      simpa [projectFirst, newerFile, EqualityDeletes.deletesOf, OrdMap.find?, OrdMap.findList] using hmem
    rw [honly] at hlayer
    exact hlayer (by decide)

end IcebergCxx.Proofs
