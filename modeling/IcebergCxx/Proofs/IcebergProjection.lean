import IcebergCxx.IcebergProjection
import IcebergCxx.Proofs.EqualityDeleteColumns
import IcebergCxx.Proofs.IcebergScan

/-!
# Columns of the returned batches

The layers of the stream keep the columns that the readers give. The final projection keeps them too, so a
batch has exactly the requested columns where no other column was read.
-/

namespace IcebergCxx.Proofs

open Lib

variable {roaring : RoaringLibrary} {builder : ScanFileReaderBuilder roaring}

/-- The name of a requested column. -/
def RequestedName (builder : FileReaderBuilder) (name : Bytes) : Prop :=
  ∃ id ∈ builder.fieldIdsToRetrieve, builder.mapper.fieldIdToColumnName id = name

/-- The projection of a batch has its requested columns, each once and with its values, no other column, and the rows
and the place of the batch. -/
structure Projects (builder : FileReaderBuilder) (batch out : FilteredBatch) : Prop where
  columns : ∀ column, column ∈ out.columns ↔ column ∈ batch.columns ∧ RequestedName builder column.1
  once : (out.columns.map Prod.fst).Nodup
  numRows : out.numRows = batch.numRows
  selected : out.selectionVector = batch.selectionVector
  position : out.rowPosition = batch.rowPosition
  place : out.toPartitionLayerFile = batch.toPartitionLayerFile

/-- Every column of a batch is requested, and has a name of its own. -/
def OnlyRequested (builder : FileReaderBuilder) (batch : FilteredBatch) : Prop :=
  (∀ column ∈ batch.columns, RequestedName builder column.1) ∧ (batch.columns.map Prod.fst).Nodup

/-- A data file has a column for a field id, or there is a default value for it. -/
def Present (builder : ScanFileReaderBuilder roaring) (path : AnnotatedDataPath) (id : Int) : Prop :=
  ∃ file fieldIdToIndex, builder.openParquet path.path = .ok file ∧
    makeFieldIdToIndexMap builder.schemaNameMapper file.fields = .ok fieldIdToIndex ∧
    ((fieldIdToIndex.find? id).isSome = true ∨ (builder.defaultValueMap.find? id).isSome = true)

/-- A field id that is read of a data file for its equality deletes or for the filter, and has a column in the batch. -/
def ReadForDeletesOrFilter (builder : FileReaderBuilder) (batch : FilteredBatch) (id : Int) : Prop :=
  id ∈ builder.fieldIdsRead batch.toPartitionLayerFile ∧ id ∉ builder.fieldIdsToRetrieve ∧
    ∃ column ∈ batch.columns, column.1 = builder.mapper.fieldIdToColumnName id

/-- The columns of field ids that the file has, with different names if the schema has different names. -/
structure FileColumns (builder : ScanFileReaderBuilder roaring) (path : AnnotatedDataPath) (ids : List Int)
    (columns : List (Bytes × KeyArray)) : Prop where
  read : ∀ column ∈ columns, ∃ id ∈ ids, Present builder path id ∧ builder.mapper.fieldIdToColumnName id = column.1
  once : builder.mapper.usedNames.Nodup → (columns.map Prod.fst).Nodup

/-! ### The projections of a file -/

/-- The projection that is made of a batch, but not returned, has the requested columns. -/
lemma mem_makeFinalProjection {mapper : FieldIdMapper} {ids : List Int} {name : Bytes × Bytes} :
    name ∈ (makeFinalProjection mapper ids).entries ↔
      name.1 = name.2 ∧ ∃ id ∈ ids, mapper.fieldIdToColumnName id = name.1 := by
  have hfold : ∀ (l : List Int) (m : OrdMap Bytes Bytes) (key value : Bytes),
      (l.foldl (fun projection fieldId =>
        projection.insert (mapper.fieldIdToColumnName fieldId) (mapper.fieldIdToColumnName fieldId)) m).find? key =
          some value ↔
        ((∃ id ∈ l, mapper.fieldIdToColumnName id = key) ∧ key = value) ∨
          (¬(∃ id ∈ l, mapper.fieldIdToColumnName id = key) ∧ m.find? key = some value) := by
    intro l
    induction l with
    | nil => simp
    | cons id l ih =>
      intro m key value
      rw [List.foldl_cons, ih, OrdMap.find?_insert]
      by_cases hkey : key = mapper.fieldIdToColumnName id
      · subst hkey
        by_cases hlater : ∃ id' ∈ l, mapper.fieldIdToColumnName id' = mapper.fieldIdToColumnName id
        · simp [hlater]
        · simp [hlater]
      · have hfirst : mapper.fieldIdToColumnName id ≠ key := Ne.symm hkey
        simp [hkey, hfirst]
  obtain ⟨key, value⟩ := name
  rw [OrdMap.mem_entries, makeFinalProjection, hfold]
  simp [OrdMap.find?_empty, and_comm]

/-- The column that an entry of a projection selects. -/
def selectColumn (columns : List (Bytes × KeyArray)) (entry : Bytes × Bytes) : Option (Bytes × KeyArray) :=
  match columns.filter (fun column => column.1 = entry.1) with
  | [column] => some (entry.2, column.2)
  | _ => none

lemma makeProjection_columns (oldNameToNewName : OrdMap Bytes Bytes) (batch : ArrowBatchWithRowPosition) :
    (makeProjection oldNameToNewName batch).columns = oldNameToNewName.entries.filterMap (selectColumn batch.columns) :=
  rfl

lemma selectColumn_eq_some {columns : List (Bytes × KeyArray)} {entry : Bytes × Bytes} {column : Bytes × KeyArray} :
    selectColumn columns entry = some column ↔ entry.2 = column.1 ∧
      ∃ found, columns.filter (fun column => column.1 = entry.1) = [found] ∧ found.2 = column.2 := by
  unfold selectColumn
  generalize columns.filter (fun column => column.1 = entry.1) = selected
  rcases selected with _ | ⟨found, _ | ⟨second, rest⟩⟩
  · simp
  · simp [Prod.ext_iff]
  · simp

lemma mem_makeProjection {oldNameToNewName : OrdMap Bytes Bytes} {batch : ArrowBatchWithRowPosition}
    {column : Bytes × KeyArray} :
    column ∈ (makeProjection oldNameToNewName batch).columns ↔ ∃ entry ∈ oldNameToNewName.entries, entry.2 = column.1 ∧
      ∃ found, batch.columns.filter (fun column => column.1 = entry.1) = [found] ∧ found.2 = column.2 := by
  rw [makeProjection_columns, List.mem_filterMap]
  exact exists_congr (fun entry => and_congr_right (fun _ => selectColumn_eq_some))

/-- Different entries of a projection have different new names, and so have the columns. -/
lemma nodup_makeProjection {oldNameToNewName : OrdMap Bytes Bytes} (h : oldNameToNewName.values.Nodup)
    (batch : ArrowBatchWithRowPosition) : ((makeProjection oldNameToNewName batch).columns.map Prod.fst).Nodup := by
  have hsublist : ∀ l : List (Bytes × Bytes),
      ((l.filterMap (selectColumn batch.columns)).map Prod.fst).Sublist (l.map Prod.snd) := by
    intro l
    induction l with
    | nil => exact List.Sublist.refl _
    | cons entry l ih =>
      rw [List.filterMap_cons, List.map_cons]
      cases hselect : selectColumn batch.columns entry with
      | none => exact ih.cons _
      | some column =>
        rw [(selectColumn_eq_some.mp hselect).1]
        exact ih.cons_cons _
  rw [makeProjection_columns]
  exact h.sublist (hsublist _)

/-- Of a batch whose columns have different names, the unused projection has exactly the requested columns. -/
theorem makeProjection_projects (builder : FileReaderBuilder) {batch : FilteredBatch}
    (h : (batch.columns.map Prod.fst).Nodup) :
    Projects builder batch { batch with
      columns := (makeProjection (makeFinalProjection builder.mapper builder.fieldIdsToRetrieve)
        batch.withRowPosition).columns } := by
  refine ⟨fun column => ?_, nodup_makeProjection ?_ _, rfl, rfl, rfl, rfl⟩
  · have hfilter : ∀ c ∈ batch.columns, batch.columns.filter (fun column => column.1 = c.1) = [c] := by
      intro c hc
      obtain ⟨before, after, hsplit⟩ := List.append_of_mem hc
      rw [hsplit, List.map_append, List.map_cons, List.nodup_append] at h
      obtain ⟨-, hafter, hbefore⟩ := h
      have hnone : after.filter (fun column => column.1 = c.1) = [] := by
        rw [List.filter_eq_nil_iff]
        intro d hd heq
        exact (List.nodup_cons.mp hafter).1 (List.mem_map.mpr ⟨d, hd, of_decide_eq_true heq⟩)
      have hnone' : before.filter (fun column => column.1 = c.1) = [] := by
        rw [List.filter_eq_nil_iff]
        intro d hd heq
        exact hbefore d.1 (List.mem_map_of_mem hd) c.1 List.mem_cons_self (of_decide_eq_true heq)
      rw [hsplit, List.filter_append, hnone', List.filter_cons_of_pos (by simp), hnone, List.nil_append]
    rw [mem_makeProjection]
    constructor
    · rintro ⟨entry, hentry, hnew, found, hfound, hvalue⟩
      obtain ⟨hsame, hrequested⟩ := mem_makeFinalProjection.mp hentry
      have hmem : found ∈ batch.columns.filter (fun column => column.1 = entry.1) :=
        hfound ▸ List.mem_singleton_self found
      obtain ⟨hcolumn, hname⟩ := List.mem_filter.mp hmem
      have hfoundName : found.1 = entry.1 := of_decide_eq_true hname
      have heq : found = column := Prod.ext (hfoundName.trans (hsame.trans hnew)) hvalue
      rw [← heq]
      exact ⟨hcolumn, by rw [hfoundName]; exact hrequested⟩
    · rintro ⟨hcolumn, hrequested⟩
      exact ⟨(column.1, column.1), mem_makeFinalProjection.mpr ⟨rfl, hrequested⟩, rfl, column, hfilter column hcolumn,
        rfl⟩
  · have hkeys : (makeFinalProjection builder.mapper builder.fieldIdsToRetrieve).values =
        (makeFinalProjection builder.mapper builder.fieldIdsToRetrieve).keys := by
      apply List.map_congr_left
      intro name hname
      exact (mem_makeFinalProjection.mp hname).1.symm
    rw [hkeys]
    exact OrdMap.keys_nodup _

/-- The renaming of a file: each entry is that of a column. -/
lemma mem_renaming {cols : List ParquetColumnInfo} {entry : Bytes × Bytes}
    (h : entry ∈ (cols.foldl (fun names col => names.insert col.parquetName col.resultName)
      (∅ : OrdMap Bytes Bytes)).entries) :
    ∃ col ∈ cols, col.parquetName = entry.1 ∧ col.resultName = entry.2 := by
  have hfold : ∀ (l : List ParquetColumnInfo) (m : OrdMap Bytes Bytes) (key value : Bytes),
      (l.foldl (fun names col => names.insert col.parquetName col.resultName) m).find? key = some value →
        (∃ col ∈ l, col.parquetName = key ∧ col.resultName = value) ∨ m.find? key = some value := by
    intro l
    induction l with
    | nil => exact fun m key value hfind => .inr hfind
    | cons col l ih =>
      intro m key value hfind
      rcases ih _ key value hfind with ⟨col', hcol', hnames⟩ | hfind
      · exact .inl ⟨col', List.mem_cons_of_mem _ hcol', hnames⟩
      · rw [OrdMap.find?_insert] at hfind
        split_ifs at hfind with hkey
        · exact .inl ⟨col, List.mem_cons_self, hkey.symm, Option.some.inj hfind⟩
        · exact .inr hfind
  obtain ⟨key, value⟩ := entry
  rcases hfold cols ∅ key value ((OrdMap.mem_entries _ _ _).mp h) with hcol | hfind
  · exact hcol
  · cases hfind

/-- What is known of a field id in a file. -/
def columnInfo (builder : ScanFileReaderBuilder roaring) (file : ParquetFile) (fieldIdToIndex : OrdMap Int Nat)
    (fieldId : Int) : ParquetColumnInfo where
  fieldId := fieldId
  columnPosition := fieldIdToIndex.find? fieldId
  parquetName := ((fieldIdToIndex.find? fieldId).bind (fun i => file.fields[i]?)).elim [] ParquetNode.name
  resultName := builder.mapper.fieldIdToColumnName fieldId

def renamingOf (builder : ScanFileReaderBuilder roaring) (file : ParquetFile) (fieldIdToIndex : OrdMap Int Nat)
    (ids : List Int) : OrdMap Bytes Bytes :=
  ((ids.map (columnInfo builder file fieldIdToIndex)).filter (fun col => col.columnPosition.isSome)).foldl
    (fun names col => names.insert col.parquetName col.resultName) ∅

def defaultColumn (builder : ScanFileReaderBuilder roaring) (rows : Nat) (col : ParquetColumnInfo) :
    Option (Bytes × KeyArray) :=
  if col.columnPosition.isSome then none
  else (builder.defaultValueMap.find? col.fieldId).map (fun makeColumn => (col.resultName, makeColumn rows))

/-- A batch of `MakeFinalStream` is a batch of the file, renamed, with the default values at the end. -/
lemma makeFinalStream_columns {file : ParquetFile} {rowGroups : List Nat} {ids : List Int}
    {batches : List ArrowBatchWithRowPosition} (h : builder.makeFinalStream file rowGroups ids = .ok batches)
    {batch : ArrowBatchWithRowPosition} (hbatch : batch ∈ batches) :
    ∃ fieldIdToIndex parquetBatch, makeFieldIdToIndexMap builder.schemaNameMapper file.fields = .ok fieldIdToIndex ∧
      batch.columns = (makeProjection (renamingOf builder file fieldIdToIndex ids) parquetBatch).columns ++
        (ids.map (columnInfo builder file fieldIdToIndex)).filterMap (defaultColumn builder parquetBatch.numRows) := by
  rw [ScanFileReaderBuilder.makeFinalStream] at h
  obtain ⟨cols, hcols, h⟩ := bind_ok h
  rw [ScanFileReaderBuilder.getParquetColumnInfos] at hcols
  obtain ⟨fieldIdToIndex, hindex, hcols⟩ := bind_ok hcols
  cases hcols
  cases h
  obtain ⟨parquetBatch, -, rfl⟩ := List.mem_map.mp hbatch
  exact ⟨fieldIdToIndex, parquetBatch, hindex, rfl⟩

section
variable {file : ParquetFile} {fieldIdToIndex : OrdMap Int Nat} {ids : List Int}

/-- An entry of the renaming belongs to a field id with a column. -/
lemma mem_renamingOf {entry : Bytes × Bytes} (h : entry ∈ (renamingOf builder file fieldIdToIndex ids).entries) :
    ∃ id ∈ ids, (fieldIdToIndex.find? id).isSome = true ∧ (columnInfo builder file fieldIdToIndex id).parquetName = entry.1 ∧
      builder.mapper.fieldIdToColumnName id = entry.2 := by
  obtain ⟨col, hcol, hold, hnew⟩ := mem_renaming h
  obtain ⟨hcol, hposition⟩ := List.mem_filter.mp hcol
  obtain ⟨id, hid, rfl⟩ := List.mem_map.mp hcol
  exact ⟨id, hid, hposition, hold, hnew⟩

lemma defaultColumn_eq_some {rows : Nat} {id : Int} {column : Bytes × KeyArray}
    (h : defaultColumn builder rows (columnInfo builder file fieldIdToIndex id) = some column) :
    (fieldIdToIndex.find? id).isSome = false ∧ (builder.defaultValueMap.find? id).isSome = true ∧
      builder.mapper.fieldIdToColumnName id = column.1 := by
  unfold defaultColumn at h
  split_ifs at h with hposition
  obtain ⟨makeColumn, hmake, rfl⟩ := Option.map_eq_some_iff.mp h
  have hvalue : builder.defaultValueMap.find? id = some makeColumn := hmake
  refine ⟨?_, by rw [hvalue]; rfl, rfl⟩
  simpa [columnInfo] using hposition

lemma mem_defaultColumns {rows : Nat} {column : Bytes × KeyArray}
    (h : column ∈ (ids.map (columnInfo builder file fieldIdToIndex)).filterMap (defaultColumn builder rows)) :
    ∃ id ∈ ids, (fieldIdToIndex.find? id).isSome = false ∧ (builder.defaultValueMap.find? id).isSome = true ∧
      builder.mapper.fieldIdToColumnName id = column.1 := by
  obtain ⟨col, hcol, hsome⟩ := List.mem_filterMap.mp h
  obtain ⟨id, hid, rfl⟩ := List.mem_map.mp hcol
  exact ⟨id, hid, defaultColumn_eq_some hsome⟩

/-- A result name belongs to one field id, and so to one name in the file. -/
lemma nodup_renamingOf (hnames : Function.Injective builder.mapper.fieldIdToColumnName) :
    (renamingOf builder file fieldIdToIndex ids).values.Nodup := by
  refine List.Nodup.map_on ?_ (List.Nodup.of_map Prod.fst (renamingOf builder file fieldIdToIndex ids).keys_nodup)
  intro a ha b hb hab
  obtain ⟨id, -, -, hold, hnew⟩ := mem_renamingOf ha
  obtain ⟨id', -, -, hold', hnew'⟩ := mem_renamingOf hb
  obtain rfl : id = id' := hnames (by rw [hnew, hnew', hab])
  exact Prod.ext (hold.symm.trans hold') hab

lemma nodup_defaultColumns (hnames : Function.Injective builder.mapper.fieldIdToColumnName) (hids : ids.Nodup)
    (rows : Nat) :
    (((ids.map (columnInfo builder file fieldIdToIndex)).filterMap (defaultColumn builder rows)).map Prod.fst).Nodup := by
  have hsublist : (((ids.map (columnInfo builder file fieldIdToIndex)).filterMap (defaultColumn builder rows)).map
      Prod.fst).Sublist (ids.map builder.mapper.fieldIdToColumnName) := by
    generalize ids = l
    induction l with
    | nil => exact List.Sublist.refl _
    | cons id l ih =>
      rw [List.map_cons, List.filterMap_cons, List.map_cons]
      cases hcolumn : defaultColumn builder rows (columnInfo builder file fieldIdToIndex id) with
      | none => exact ih.cons _
      | some column =>
        rw [(defaultColumn_eq_some hcolumn).2.2]
        exact ih.cons_cons _
  exact (hids.map hnames).sublist hsublist

end

/-- What `MakeFinalStream` reads of a file. -/
lemma fileColumns_makeFinalStream {path : AnnotatedDataPath} {file : ParquetFile}
    (hfile : builder.openParquet path.path = .ok file) {rowGroups : List Nat} {ids : List Int} (hids : ids.Nodup)
    {batches : List ArrowBatchWithRowPosition} (h : builder.makeFinalStream file rowGroups ids = .ok batches)
    {batch : ArrowBatchWithRowPosition} (hbatch : batch ∈ batches) : FileColumns builder path ids batch.columns := by
  obtain ⟨fieldIdToIndex, parquetBatch, hindex, hcolumns⟩ := makeFinalStream_columns h hbatch
  rw [hcolumns]
  refine ⟨fun column hcolumn => ?_, fun hnames => ?_⟩
  · rcases List.mem_append.mp hcolumn with hcolumn | hcolumn
    · obtain ⟨entry, hentry, hnew, -⟩ := mem_makeProjection.mp hcolumn
      obtain ⟨id, hid, hposition, -, hname⟩ := mem_renamingOf hentry
      exact ⟨id, hid, ⟨file, fieldIdToIndex, hfile, hindex, .inl hposition⟩, hname.trans hnew⟩
    · obtain ⟨id, hid, -, hvalue, hname⟩ := mem_defaultColumns hcolumn
      exact ⟨id, hid, ⟨file, fieldIdToIndex, hfile, hindex, .inr hvalue⟩, hname⟩
  · have hinjective := fieldIdToColumnName_injective hnames
    rw [List.map_append, List.nodup_append]
    refine ⟨nodup_makeProjection (nodup_renamingOf hinjective) _, nodup_defaultColumns hinjective hids _, ?_⟩
    intro name hname name' hname' heq
    obtain ⟨column, hcolumn, rfl⟩ := List.mem_map.mp hname
    obtain ⟨column', hcolumn', rfl⟩ := List.mem_map.mp hname'
    obtain ⟨entry, hentry, hnew, -⟩ := mem_makeProjection.mp hcolumn
    obtain ⟨id, -, hposition, -, hold⟩ := mem_renamingOf hentry
    obtain ⟨id', -, hposition', -, hold'⟩ := mem_defaultColumns hcolumn'
    obtain rfl : id = id' := hinjective (by rw [hold, hold', hnew, heq])
    rw [hposition] at hposition'
    cases hposition'

/-! ### The stream of a file -/

/-- The data and the filter columns of a file, one after the other. -/
lemma fileColumns_append {path : AnnotatedDataPath} {data filter : List (Bytes × KeyArray)}
    (hdata : FileColumns builder path (builder.fieldIdsForData path.toPartitionLayerFile) data)
    (hfilter : FileColumns builder path builder.fieldIdsForFilter filter) :
    FileColumns builder path (builder.fieldIdsRead path.toPartitionLayerFile) (data ++ filter) := by
  refine ⟨fun column hcolumn => ?_, fun hnames => ?_⟩
  · rcases List.mem_append.mp hcolumn with hcolumn | hcolumn
    · obtain ⟨id, hid, hread⟩ := hdata.read column hcolumn
      exact ⟨id, List.mem_append_left _ hid, hread⟩
    · obtain ⟨id, hid, hread⟩ := hfilter.read column hcolumn
      exact ⟨id, List.mem_append_right _ hid, hread⟩
  · rw [List.map_append, List.nodup_append]
    refine ⟨hdata.once hnames, hfilter.once hnames, ?_⟩
    intro name hname name' hname' heq
    obtain ⟨column, hcolumn, rfl⟩ := List.mem_map.mp hname
    obtain ⟨column', hcolumn', rfl⟩ := List.mem_map.mp hname'
    obtain ⟨id, hid, -, hnew⟩ := hdata.read column hcolumn
    obtain ⟨id', hid', -, hnew'⟩ := hfilter.read column' hcolumn'
    obtain rfl : id = id' := fieldIdToColumnName_injective hnames (by rw [hnew, hnew', heq])
    exact (List.nodup_append.mp (nodup_fieldIdsRead builder.toFileReaderBuilder path.toPartitionLayerFile)).2.2
      id hid id hid' rfl

/-- A stream over what is left of a data file. -/
structure StreamsFile (builder : ScanFileReaderBuilder roaring) (path : AnnotatedDataPath) (stream : FilteringStream) :
    Prop where
  place : stream.partitionLayerFile = path.toPartitionLayerFile
  filter : ∀ batch ∈ pending stream, FileColumns builder path builder.fieldIdsForFilter batch.columns
  data : ∀ batch ∈ stream.dataStream,
    FileColumns builder path (builder.fieldIdsForData path.toPartitionLayerFile) batch.columns

/-- A batch of a data file. -/
structure BatchOf (builder : ScanFileReaderBuilder roaring) (path : AnnotatedDataPath) (batch : FilteredBatch) :
    Prop where
  place : batch.toPartitionLayerFile = path.toPartitionLayerFile
  columns : FileColumns builder path (builder.fieldIdsRead path.toPartitionLayerFile) batch.columns

lemma streamsFile_makeFilteringStream {path : AnnotatedDataPath} {stream : FilteringStream}
    (h : builder.makeFilteringStream path = .ok stream) : StreamsFile builder path stream := by
  rw [ScanFileReaderBuilder.makeFilteringStream] at h
  obtain ⟨file, hfile, h⟩ := bind_ok h
  obtain ⟨rowGroups, -, h⟩ := bind_ok h
  obtain ⟨dataStream, hdata, h⟩ := bind_ok h
  obtain ⟨filterStream, hfilter, h⟩ := bind_ok h
  cases h
  refine ⟨rfl, fun batch hbatch => ?_, fun batch hbatch => ?_⟩
  · exact fileColumns_makeFinalStream hfile (nodup_sortUnique _) hfilter (List.mem_filter.mp hbatch).1
  · exact fileColumns_makeFinalStream hfile ((nodup_sortUnique _).filter _) hdata hbatch

/-- A call leaves a stream over the file, and what it returns is a batch of it. -/
lemma StreamsFile.readNext {path : AnnotatedDataPath} {stream : FilteringStream} (h : StreamsFile builder path stream) :
    StreamsFile builder path stream.readNext.2 ∧
      ∀ batch, stream.readNext.1 = .batch batch → BatchOf builder path batch := by
  obtain ⟨-, hfile, hsuffix, hanswers⟩ := readNext_spec stream
  have hdata : ∀ batch ∈ stream.readNext.2.dataStream,
      FileColumns builder path (builder.fieldIdsForData path.toPartitionLayerFile) batch.columns :=
    fun batch hbatch => h.data batch (hsuffix.subset hbatch)
  rcases hanswers with ⟨-, hpending, hended, -⟩ | ⟨batchFilter, hpending, hanswer⟩
  · refine ⟨⟨hfile.trans h.place, fun batch hbatch => ?_, hdata⟩, fun batch hbatch => ?_⟩
    · rw [hpending] at hbatch
      cases hbatch
    · rw [hended] at hbatch
      cases hbatch
  · have hfilter : ∀ batch ∈ batchFilter :: pending stream.readNext.2,
        FileColumns builder path builder.fieldIdsForFilter batch.columns := hpending ▸ h.filter
    refine ⟨⟨hfile.trans h.place, fun batch hbatch => hfilter batch (List.mem_cons_of_mem _ hbatch), hdata⟩, ?_⟩
    intro batch hbatch
    rw [hbatch] at hanswer
    rcases hanswer with ⟨-, hnull⟩ | ⟨-, batchData, hmem, hcombines⟩
    · cases hnull
    · refine ⟨hcombines.file.trans h.place, ?_⟩
      rw [hcombines.columns]
      exact fileColumns_append (h.data batchData hmem) (hfilter batchFilter List.mem_cons_self)

/-- A deletion vector changes the selected rows only. -/
lemma BatchOf.applyDeletionVector {path : AnnotatedDataPath} {batch kept : FilteredBatch} (h : BatchOf builder path batch)
    {dv : DeletionVector roaring} (happly : DeletionVectorApplier.applyDeletionVector batch dv = .ok kept) :
    BatchOf builder path kept := by
  rw [DeletionVectorApplier.applyDeletionVector] at happly
  obtain ⟨relative, -, happly⟩ := bind_ok happly
  split_ifs at happly
  · cases happly
    exact h
  · cases happly
    exact ⟨h.place, h.columns⟩

lemma dataFileStream_readNext {path : AnnotatedDataPath} {stream : DataFileStream roaring}
    (h : StreamsFile builder path stream.input) :
    StreamsFile builder path stream.readNext.2.input ∧
      ∀ batch, stream.readNext.1 = .batch batch → BatchOf builder path batch := by
  obtain ⟨hnext, hbatch⟩ := h.readNext
  rw [DataFileStream.readNext]
  cases hdv : stream.dv with
  | none => exact ⟨hnext, hbatch⟩
  | some dv =>
    simp only [DeletionVectorApplier.readNext]
    rcases hread : stream.input.readNext with ⟨result, input⟩
    rw [hread] at hnext hbatch
    cases result with
    | batch batch =>
      have hof := hbatch batch rfl
      dsimp only
      cases happly : DeletionVectorApplier.applyDeletionVector batch dv with
      | ok kept =>
        refine ⟨hnext, fun batch' hbatch' => ?_⟩
        cases hbatch'
        exact hof.applyDeletionVector happly
      | error message => exact ⟨hnext, fun batch' hbatch' => by cases hbatch'⟩
    | ended => exact ⟨hnext, fun batch' hbatch' => by cases hbatch'⟩
    | thrown message => exact ⟨hnext, fun batch' hbatch' => by cases hbatch'⟩
    | nullDereference => exact ⟨hnext, fun batch' hbatch' => by cases hbatch'⟩

/-! ### The stream of all files -/

/-- A scanner over some of the files, with a stream over one of them. -/
structure ScansFiles (builder : ScanFileReaderBuilder roaring) (paths : List AnnotatedDataPath)
    (scanner : DataScanner roaring) : Prop where
  left : scanner.metaStream ⊆ paths
  current : ∀ stream ∈ scanner.currentDataStream, ∃ path ∈ paths, StreamsFile builder path stream.input

/-- What a call of the scanner leaves and returns. -/
def ScannerCall (builder : ScanFileReaderBuilder roaring) (paths : List AnnotatedDataPath)
    (read : ReadResult FilteredBatch × DataScanner roaring) : Prop :=
  ScansFiles builder paths read.2 ∧ ∀ batch, read.1 = .batch batch → ∃ path ∈ paths, BatchOf builder path batch

/-- A call that reads from a stream of a file. -/
lemma scannerCall_current {paths : List AnnotatedDataPath} {path : AnnotatedDataPath} (hpath : path ∈ paths)
    {stream : DataFileStream roaring} (h : StreamsFile builder path stream.input) {left : List AnnotatedDataPath}
    (hleft : left ⊆ paths) (cache : DvCache (DeletionVector roaring)) :
    ScannerCall builder paths (stream.readNext.1, ⟨left, some stream.readNext.2, cache⟩) := by
  obtain ⟨hnext, hbatch⟩ := dataFileStream_readNext h
  refine ⟨⟨hleft, ?_⟩, fun batch hread => ⟨path, hpath, hbatch batch hread⟩⟩
  rintro stream' hstream'
  cases hstream'
  exact ⟨path, hpath, hnext⟩

lemma build_streamsFile {path : AnnotatedDataPath} {cache cache' : DvCache (DeletionVector roaring)}
    {stream : DataFileStream roaring} (h : builder.build cache path = (.ok stream, cache')) :
    StreamsFile builder path stream.input := by
  rw [ScanFileReaderBuilder.build] at h
  cases hmake : builder.makeFilteringStream path with
  | error message =>
    rw [hmake] at h
    cases h
  | ok input =>
    rw [hmake] at h
    have hstream := congrArg Prod.fst h
    dsimp only at hstream
    cases hdv : (buildDv builder.openDeletionVector { path := path.path, deletionVector := path.dvInfo } cache).1 with
    | error message =>
      rw [hdv] at hstream
      cases hstream
    | ok dv =>
      rw [hdv] at hstream
      cases hstream
      exact streamsFile_makeFilteringStream hmake

lemma scannerCall_readMeta {paths left : List AnnotatedDataPath} (hleft : left ⊆ paths)
    (cache : DvCache (DeletionVector roaring)) : ScannerCall builder paths (DataScanner.readMeta builder cache left) := by
  induction left generalizing cache with
  | nil => exact ⟨⟨hleft, fun stream hstream => by cases hstream⟩, fun batch hbatch => by cases hbatch⟩
  | cons path left ih =>
    obtain ⟨hpath, hrest⟩ := List.cons_subset.mp hleft
    rw [DataScanner.readMeta]
    rcases hbuild : builder.build cache path with ⟨_ | stream, cache'⟩
    · exact ⟨⟨hrest, fun stream hstream => by cases hstream⟩, fun batch hbatch => by cases hbatch⟩
    · have hcall := scannerCall_current hpath (build_streamsFile hbuild) hrest cache'
      dsimp only
      rcases hread : stream.readNext with ⟨result, stream'⟩
      rw [hread] at hcall
      cases result with
      | ended => exact ih hrest cache'
      | batch batch => exact hcall
      | thrown message => exact hcall
      | nullDereference => exact hcall

lemma ScansFiles.readNext {paths : List AnnotatedDataPath} {scanner : DataScanner roaring}
    (h : ScansFiles builder paths scanner) : ScannerCall builder paths (scanner.readNext builder) := by
  rw [DataScanner.readNext]
  cases hcurrent : scanner.currentDataStream with
  | none => exact scannerCall_readMeta h.left scanner.cache
  | some stream =>
    obtain ⟨path, hpath, hstream⟩ := h.current stream hcurrent
    have hcall := scannerCall_current hpath hstream h.left scanner.cache
    dsimp only
    rcases hread : stream.readNext with ⟨result, stream'⟩
    rw [hread] at hcall
    cases result with
    | ended => exact scannerCall_readMeta h.left scanner.cache
    | batch batch => exact hcall
    | thrown message => exact hcall
    | nullDereference => exact hcall

/-! ### The deletes and the projection -/

/-- The rows that are selected may differ. -/
def SameColumns (batch kept : FilteredBatch) : Prop :=
  kept.toPartitionLayerFile = batch.toPartitionLayerFile ∧ kept.columns = batch.columns

lemma BatchOf.same {path : AnnotatedDataPath} {batch kept : FilteredBatch} (h : BatchOf builder path batch)
    (hsame : SameColumns batch kept) : BatchOf builder path kept :=
  ⟨hsame.1.trans h.place, hsame.2 ▸ h.columns⟩

lemma applyDeletes_same {reader : FileReaderBuilder} {applier applier' : EqualityDeleteApplier}
    {batch kept : IcebergBatch} (h : applier.applyDeletes reader batch = .ok (applier', kept)) :
    kept.toPartitionLayerFile = batch.toPartitionLayerFile ∧ kept.columns = batch.columns := by
  simp only [EqualityDeleteApplier.applyDeletes] at h
  split_ifs at h
  · obtain ⟨arrays, -, h⟩ := bind_ok h
    cases h
    exact ⟨rfl, rfl⟩
  · cases h
    exact ⟨rfl, rfl⟩

lemma tryApplyDeletes_same {reader : FileReaderBuilder} {applier : EqualityDeleteApplier} {batch kept : IcebergBatch}
    (h : (applier.tryApplyDeletes reader batch).1 = .ok kept) :
    kept.toPartitionLayerFile = batch.toPartitionLayerFile ∧ kept.columns = batch.columns := by
  rw [EqualityDeleteApplier.tryApplyDeletes] at h
  cases happly : applier.applyDeletes reader batch with
  | ok applied =>
    rw [happly] at h
    cases h
    exact applyDeletes_same happly
  | error message =>
    rw [happly] at h
    cases h

lemma tryReadNext_same {ctx : EqualityDeleteContext} {reader : FileReaderBuilder} {applier : EqualityDeleteApplier}
    {attempt : BatchAttempt} {kept : IcebergBatch} (h : (applier.tryReadNext ctx reader attempt).1 = .ok kept) :
    kept.toPartitionLayerFile = attempt.batch.toPartitionLayerFile ∧ kept.columns = attempt.batch.columns := by
  rw [EqualityDeleteApplier.tryReadNext] at h
  split_ifs at h
  · exact tryApplyDeletes_same h
  · rcases hset : EqualityDeleteApplier.trySetDeletes ctx attempt.faults 0
      (reader.equalityDeletes.deletesOf attempt.batch.partition) {} with ⟨_ | message, handler⟩
    · rw [hset] at h
      exact tryApplyDeletes_same h
    · rw [hset] at h
      cases h

section
variable {Q : MinQueue PositionalDeleteStream.Reader.getPosition} {ctx : EqualityDeleteContext}
  {deletes : PositionalDeletes} {cb : Bytes → DeleteFile} {faults : Nat → Option LoadFault}

lemma applyEqualityDeletes_same {applier : EqualityDeleteApplier} {batch kept : FilteredBatch}
    (h : (ProjectedScan.applyEqualityDeletes ctx builder faults applier batch).1 = .batch kept) :
    SameColumns batch kept := by
  rw [ProjectedScan.applyEqualityDeletes] at h
  split_ifs at h
  · cases h
    exact ⟨rfl, rfl⟩
  · rcases hread : applier.tryReadNext ctx builder.toFileReaderBuilder
      { batch := batch.toIcebergBatch, faults := faults } with ⟨_ | kept', applier'⟩
    · rw [hread] at h
      cases h
    · rw [hread] at h
      cases h
      exact tryReadNext_same (congrArg Prod.fst hread)

lemma positionalDeletes_same {applier : PositionalDeleteApplier} {attempt : ReadAttempt} {kept : RowBatch}
    (h : (applier.readNext Q deletes cb attempt).1 = .ok kept) :
    kept.toPartitionLayerFile = attempt.batch.toPartitionLayerFile ∧ kept.columns = attempt.batch.columns := by
  have happly : ∀ {applier : PositionalDeleteApplier} {stream : PositionalDeleteStream} {kept : RowBatch},
      (applier.applyDeletes Q attempt.readFaults stream attempt.batch).1 = .ok kept →
        kept.toPartitionLayerFile = attempt.batch.toPartitionLayerFile ∧ kept.columns = attempt.batch.columns := by
    intro applier stream kept hkept
    rw [PositionalDeleteApplier.applyDeletes] at hkept
    split at hkept
    · cases hkept
    · cases hkept
      exact ⟨rfl, rfl⟩
  rw [PositionalDeleteApplier.readNext] at h
  split_ifs at h
  · cases hstream : applier.positionalDelete with
    | some stream =>
      rw [hstream] at h
      exact happly h
    | none =>
      rw [hstream] at h
      cases h
      exact ⟨rfl, rfl⟩
  · split at h
    · cases h
    · exact happly h
  · cases h
    exact ⟨rfl, rfl⟩

lemma applyPositionalDeletes_same {applier : PositionalDeleteApplier} {batch kept : FilteredBatch}
    (h : (IcebergScan.applyPositionalDeletes Q deletes cb applier batch).1 = .batch kept) : SameColumns batch kept := by
  rw [IcebergScan.applyPositionalDeletes] at h
  split_ifs at h
  · cases h
    exact ⟨rfl, rfl⟩
  · rw [FilteredBatch.rowBatch] at h
    split_ifs at h with hascending
    · dsimp only at h
      split at h
      · cases h
      · rename_i rows applier' hread
        cases h
        exact positionalDeletes_same (congrArg Prod.fst hread)

/-- The columns of a batch are those that the scanner gave it. -/
lemma readInput_batchOf {paths : List AnnotatedDataPath} {scan : ProjectedScan roaring}
    (h : ScansFiles builder paths scan.input) :
    ScansFiles builder paths (scan.readInput Q ctx builder deletes cb faults).2.input ∧
      ∀ batch, (scan.readInput Q ctx builder deletes cb faults).1 = .batch batch →
        ∃ path ∈ paths, BatchOf builder path batch := by
  obtain ⟨hscans, hbatch⟩ := h.readNext
  rw [ProjectedScan.readInput]
  rcases hread : scan.input.readNext builder with ⟨result, input⟩
  rw [hread] at hscans hbatch
  cases result with
  | batch batch =>
    obtain ⟨path, hpath, hof⟩ := hbatch batch rfl
    dsimp only
    rcases hequality : ProjectedScan.applyEqualityDeletes ctx builder faults scan.equalityDeleteApplier batch with
      ⟨result, equalityDeleteApplier⟩
    cases result with
    | batch kept =>
      have hkept := hof.same (applyEqualityDeletes_same (congrArg Prod.fst hequality))
      exact ⟨hscans, fun out hout => ⟨path, hpath, hkept.same (applyPositionalDeletes_same hout)⟩⟩
    | ended => exact ⟨hscans, fun out hout => by cases hout⟩
    | thrown message => exact ⟨hscans, fun out hout => by cases hout⟩
    | nullDereference => exact ⟨hscans, fun out hout => by cases hout⟩
  | ended => exact ⟨hscans, fun out hout => by cases hout⟩
  | thrown message => exact ⟨hscans, fun out hout => by cases hout⟩
  | nullDereference => exact ⟨hscans, fun out hout => by cases hout⟩

/-- The projection stream returns what it was given. -/
lemma projectedScan_readNext (scan : ProjectedScan roaring) :
    scan.readNext Q ctx builder deletes cb faults = scan.readInput Q ctx builder deletes cb faults := by
  rw [ProjectedScan.readNext]
  rcases scan.readInput Q ctx builder deletes cb faults with ⟨_ | _ | _ | _, scan'⟩ <;> rfl

lemma after_scansFiles {paths : List AnnotatedDataPath} {faults : Nat → Nat → Option LoadFault}
    {scan : ProjectedScan roaring} (h : ScansFiles builder paths scan.input) (calls : Nat) :
    ScansFiles builder paths (scan.after Q ctx builder deletes cb faults calls).input := by
  induction calls with
  | zero => exact h
  | succ calls ih =>
    rw [ProjectedScan.after, projectedScan_readNext]
    exact (readInput_batchOf ih).1

end

/-- A batch is a projection of itself exactly when it has no other columns than the requested ones. -/
lemma projects_self_iff {reader : FileReaderBuilder} {batch : FilteredBatch} :
    Projects reader batch batch ↔ OnlyRequested reader batch := by
  constructor
  · intro h
    exact ⟨fun column hcolumn => ((h.columns column).mp hcolumn).2, h.once⟩
  · rintro ⟨hrequested, honce⟩
    exact ⟨fun column => ⟨fun hcolumn => ⟨hcolumn, hrequested column hcolumn⟩, And.left⟩, honce, rfl, rfl, rfl, rfl⟩

/-- Where the names of the schema are different, this is so when nothing was read only for deletes or the filter. -/
lemma onlyRequested_iff {path : AnnotatedDataPath} {batch : FilteredBatch} (h : BatchOf builder path batch)
    (hnames : builder.mapper.usedNames.Nodup) : OnlyRequested builder.toFileReaderBuilder batch ↔
      ∀ id, ¬ReadForDeletesOrFilter builder.toFileReaderBuilder batch id := by
  constructor
  · rintro ⟨hrequested, -⟩ id ⟨-, hnot, column, hcolumn, hname⟩
    obtain ⟨id', hid', hname'⟩ := hrequested column hcolumn
    exact hnot (fieldIdToColumnName_injective hnames (hname'.trans hname) ▸ hid')
  · intro hnone
    refine ⟨fun column hcolumn => ?_, h.columns.once hnames⟩
    obtain ⟨id, hid, -, hname⟩ := h.columns.read column hcolumn
    refine ⟨id, ?_, hname⟩
    by_contra hnot
    exact hnone id ⟨h.place ▸ hid, hnot, column, hcolumn, hname.symm⟩

/-- Every batch that the stream returns, over any run, has columns of a data file of the plan. It is the projection of
the batch below exactly when this one has requested columns only, and where the names of the schema are different, that
is when no column in it was read only for the equality deletes or the filter. -/
theorem projectedScan_projects_iff (Q : MinQueue PositionalDeleteStream.Reader.getPosition)
    (ctx : EqualityDeleteContext) (builder : ScanFileReaderBuilder roaring) (deletes : PositionalDeletes)
    (cb : Bytes → DeleteFile) (faults : Nat → Nat → Option LoadFault) (paths : List AnnotatedDataPath) (calls : Nat)
    {scan : ProjectedScan roaring}
    (hscan : scan = (ProjectedScan.mk { metaStream := paths } {} {}).after Q ctx builder deletes cb faults calls)
    {out : FilteredBatch} (hout : (scan.readNext Q ctx builder deletes cb (faults calls)).1 = .batch out) :
    ∃ batch, (scan.readInput Q ctx builder deletes cb (faults calls)).1 = .batch batch ∧
      (∃ path ∈ paths, BatchOf builder path batch) ∧
      (Projects builder.toFileReaderBuilder batch out ↔ OnlyRequested builder.toFileReaderBuilder batch) ∧
      (builder.mapper.usedNames.Nodup → (Projects builder.toFileReaderBuilder batch out ↔
        ∀ id, ¬ReadForDeletesOrFilter builder.toFileReaderBuilder batch id)) := by
  have hstart : ScansFiles builder paths { metaStream := paths } :=
    ⟨List.Subset.refl _, fun stream hstream => by cases hstream⟩
  have hscans : ScansFiles builder paths scan.input := by
    rw [hscan]
    exact after_scansFiles hstart calls
  rw [projectedScan_readNext] at hout
  obtain ⟨path, hpath, hof⟩ := (readInput_batchOf hscans).2 out hout
  refine ⟨out, hout, ⟨path, hpath, hof⟩, projects_self_iff, fun hnames => ?_⟩
  rw [projects_self_iff]
  exact onlyRequested_iff hof hnames

/-! ### A column for the filter -/

/-- A file of one row with the columns `a` and `b`. -/
def twoColumnsFile : ParquetFile where
  fields := [.primitive (bytes "a") 1, .primitive (bytes "b") 2]
  rowGroups := [⟨⟨4, 0⟩, 1, fun columns _ _ => columns.filterMap (fun i =>
    [(bytes "a", ⟨.int32, [⟨false, [5, 0, 0, 0]⟩], fiveSlot_fits⟩),
      (bytes "b", ⟨.int32, [⟨false, [5, 0, 0, 0]⟩], fiveSlot_fits⟩)][i]?)⟩]

/-- A reader of some columns; the filter reads `b`. -/
def twoColumnsBuilder (fieldIdsToRetrieve : List Int) : ScanFileReaderBuilder listRoaring where
  fieldIdsToRetrieve := fieldIdsToRetrieve
  rowFilterFieldIds := [2]
  equalityDeletes := ⟨∅⟩
  mapper := projectFirst.mapper
  rowFilter := passThroughFilter
  canSkipRowGroup := none
  schemaNameMapper := none
  defaultValueMap := ∅
  batchSize := 1
  openParquet _ := .ok twoColumnsFile
  openDeletionVector _ := vectorOfZero

def twoColumnsPaths : List AnnotatedDataPath := [annotatedDataPath 0 0 (entryOfA false)]

/-- The row of the file, with both columns. -/
def twoColumnsBatch : FilteredBatch where
  partition := 0
  layer := 0
  path := bytes "a"
  rowPosition := 0
  columns := [(bytes "a", ⟨.int32, [⟨false, [5, 0, 0, 0]⟩], fiveSlot_fits⟩),
    (bytes "b", ⟨.int32, [⟨false, [5, 0, 0, 0]⟩], fiveSlot_fits⟩)]
  selectionVector := [0]
  numRows := 1

lemma twoColumns_readNext (ids : List Int) (h : ids = [1] ∨ ids = [1, 2]) :
    ((ProjectedScan.mk { metaStream := twoColumnsPaths } {} {}).readNext
      (firstMin PositionalDeleteStream.Reader.getPosition) deleteOnSecondContext (twoColumnsBuilder ids) ⟨∅⟩
      (fun _ => threeDeletes) (fun _ => none)).1 = .batch twoColumnsBatch := by
  rcases h with rfl | rfl <;> rfl

theorem twoColumns_projected : ∃ batch,
    ((ProjectedScan.mk { metaStream := twoColumnsPaths } {} {}).readInput
      (firstMin PositionalDeleteStream.Reader.getPosition) deleteOnSecondContext (twoColumnsBuilder [1, 2]) ⟨∅⟩
      (fun _ => threeDeletes) (fun _ => none)).1 = .batch batch ∧
    (Projects (twoColumnsBuilder [1, 2]).toFileReaderBuilder batch twoColumnsBatch ↔
      OnlyRequested (twoColumnsBuilder [1, 2]).toFileReaderBuilder batch) := by
  obtain ⟨batch, hbatch, -, hiff, -⟩ := projectedScan_projects_iff (firstMin PositionalDeleteStream.Reader.getPosition)
    deleteOnSecondContext (twoColumnsBuilder [1, 2]) ⟨∅⟩ (fun _ => threeDeletes) (fun _ _ => none) twoColumnsPaths 0 rfl
    (twoColumns_readNext [1, 2] (.inr rfl))
  exact ⟨batch, hbatch, hiff⟩

/-- Only `a` is requested, and `b` is returned with it. -/
theorem twoColumns_filterColumn_returned : ∃ batch out,
    ((ProjectedScan.mk { metaStream := twoColumnsPaths } {} {}).readInput
      (firstMin PositionalDeleteStream.Reader.getPosition) deleteOnSecondContext (twoColumnsBuilder [1]) ⟨∅⟩
      (fun _ => threeDeletes) (fun _ => none)).1 = .batch batch ∧
    ((ProjectedScan.mk { metaStream := twoColumnsPaths } {} {}).readNext
      (firstMin PositionalDeleteStream.Reader.getPosition) deleteOnSecondContext (twoColumnsBuilder [1]) ⟨∅⟩
      (fun _ => threeDeletes) (fun _ => none)).1 = .batch out ∧
    ¬Projects (twoColumnsBuilder [1]).toFileReaderBuilder batch out := by
  have hread := twoColumns_readNext [1] (.inl rfl)
  refine ⟨twoColumnsBatch, twoColumnsBatch, ?_, hread, fun h => ?_⟩
  · rwa [projectedScan_readNext] at hread
  · obtain ⟨id, hid, hname⟩ := ((h.columns _).mp (List.mem_cons_of_mem _ List.mem_cons_self)).2
    obtain rfl : id = 1 := List.mem_singleton.mp hid
    exact absurd hname (by decide)

end IcebergCxx.Proofs
