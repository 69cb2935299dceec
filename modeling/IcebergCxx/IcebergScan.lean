import IcebergCxx.DeletionVectorApplier
import IcebergCxx.DeletionVectorCache
import IcebergCxx.ParquetColumns
import IcebergCxx.RowGroups

/-!
# Reading a plan

`IcebergScanBuilder::MakeIcebergStream` without equality deletes: `DataScanner` reads the data files of a
plan one after the other, `FileReaderBuilder` makes the stream of each file, and `PositionalDeleteApplier`
goes over the batches of all of them. The Parquet library reads a row group in batches of one size,
whatever columns it is asked for. Opening deletion vectors and reading row groups do not fail.
-/

namespace IcebergCxx

open Lib

/-! ### Data files -/

/-- A row group. `readColumns` gives the columns with some indices, for as many rows from `start` on. -/
structure ParquetRowGroup where
  metadata : RowGroupMetaData
  numRows : Nat
  readColumns : List Nat → (start rows : Nat) → List (Bytes × KeyArray)

structure ParquetFile where
  fields : List ParquetNode
  rowGroups : List ParquetRowGroup

/-- The numbers of rows of the batches that `GetRecordBatchReader` gives for a row group. -/
def batchRows (batchSize numRows : Nat) : List Nat :=
  List.replicate (numRows / batchSize) batchSize ++
    if numRows % batchSize = 0 then [] else [numRows % batchSize]

/-- `RowGroupReaderWithRowNumber::ReadNext` over the batches that are left. -/
def readBatches (rowGroup : ParquetRowGroup) (columns : List Nat) (firstRow : Nat) :
    Nat → List Nat → List ArrowBatchWithRowPosition
  | _, [] => []
  | start, rows :: rest =>
    { columns := rowGroup.readColumns columns start rows
      numRows := rows
      rowPosition := (firstRow + start : Nat) } :: readBatches rowGroup columns firstRow (start + rows) rest

/-- `current_row_` of the reader of a row group: the rows of the file before it. -/
def ParquetFile.currentRow (file : ParquetFile) (rowGroup : Nat) : Nat :=
  ((file.rowGroups.take rowGroup).map ParquetRowGroup.numRows).sum

/-- `ParquetFileReader`. -/
def parquetFileReader (batchSize : Nat) (file : ParquetFile) (rowGroups : List Nat) (columns : List Nat) :
    List ArrowBatchWithRowPosition :=
  rowGroups.flatMap (fun i =>
    match file.rowGroups[i]? with
    | none => []
    | some rowGroup =>
      readBatches rowGroup columns (file.currentRow i) 0 (batchRows batchSize rowGroup.numRows))

/-- `ProjectionStream::MakeProjection`: columns whose name is missing or ambiguous are left out. -/
def makeProjection (oldNameToNewName : OrdMap Bytes Bytes) (batch : ArrowBatchWithRowPosition) :
    ArrowBatchWithRowPosition :=
  { batch with
    columns := oldNameToNewName.entries.filterMap (fun (oldName, newName) =>
      match batch.columns.filter (fun column => column.1 = oldName) with
      | [column] => some (newName, column.2)
      | _ => none) }

/-! ### The stream of a data file -/

structure ParquetColumnInfo where
  fieldId : Int
  columnPosition : Option Nat
  parquetName : Bytes
  resultName : Bytes

/-- `AnnotatedDataPath`. -/
structure AnnotatedDataPath extends PartitionLayerFile where
  segments : List Segment
  dvInfo : Option DeletionVectorInfo

/-- `FileReaderBuilder` with its filters, the literals that fill missing columns and the files it opens. -/
structure ScanFileReaderBuilder (roaring : RoaringLibrary) extends FileReaderBuilder where
  rowFilter : ApplyRowFilter
  canSkipRowGroup : Option (ParquetRowGroup → Bool)
  schemaNameMapper : Option (Bytes → Option Int)
  defaultValueMap : OrdMap Int (Nat → KeyArray)
  batchSize : Nat
  openParquet : Bytes → Except String ParquetFile
  openDeletionVector : DeletionVectorInfo → DeletionVector roaring

/-- What `Build` returns: a `FilteringStream`, with a `DeletionVectorApplier` over it for a data file with a
vector. -/
structure DataFileStream (roaring : RoaringLibrary) where
  input : FilteringStream
  dv : Option (DeletionVector roaring)

def DataFileStream.readNext {roaring : RoaringLibrary} (stream : DataFileStream roaring) :
    ReadResult FilteredBatch × DataFileStream roaring :=
  match stream.dv with
  | none => (stream.input.readNext.1, { stream with input := stream.input.readNext.2 })
  | some dv =>
    let read := (DeletionVectorApplier.mk stream.input dv).readNext
    (read.1, { stream with input := read.2.input })

namespace ScanFileReaderBuilder

variable {roaring : RoaringLibrary} (builder : ScanFileReaderBuilder roaring)

def getParquetColumnInfos (fields : List ParquetNode) (fieldIds : List Int) :
    Except String (List ParquetColumnInfo) := do
  let fieldIdToIndex ← makeFieldIdToIndexMap builder.schemaNameMapper fields
  return fieldIds.map (fun fieldId =>
    let index := fieldIdToIndex.find? fieldId
    { fieldId := fieldId
      columnPosition := index
      parquetName := (index.bind (fun i => fields[i]?)).elim [] ParquetNode.name
      resultName := builder.mapper.fieldIdToColumnName fieldId })

/-- `DefaultValueApplier::ReadNext`. -/
def applyDefaultValues (cols : List ParquetColumnInfo) (batch : ArrowBatchWithRowPosition) :
    ArrowBatchWithRowPosition :=
  { batch with
    columns := batch.columns ++ cols.filterMap (fun col =>
      if col.columnPosition.isSome then none
      else (builder.defaultValueMap.find? col.fieldId).map (fun makeColumn =>
        (col.resultName, makeColumn batch.numRows))) }

def makeFinalStream (file : ParquetFile) (matchingRowGroups : List Nat) (fieldIds : List Int) :
    Except String (List ArrowBatchWithRowPosition) := do
  let cols ← builder.getParquetColumnInfos file.fields fieldIds
  let parquetNameToResultName := (cols.filter (fun col => col.columnPosition.isSome)).foldl
    (fun names col => names.insert col.parquetName col.resultName) ∅
  return (parquetFileReader builder.batchSize file matchingRowGroups
    (cols.filterMap ParquetColumnInfo.columnPosition)).map (fun batch =>
      builder.applyDefaultValues cols (makeProjection parquetNameToResultName batch))

/-- `Build` up to the deletion vector. -/
def makeFilteringStream (path : AnnotatedDataPath) : Except String FilteringStream := do
  let file ← builder.openParquet path.path
  let rowGroupsMatchingOffsets ←
    getRowGroupsToRetrieve (file.rowGroups.map ParquetRowGroup.metadata) path.segments
  let matchingRowGroups := match builder.canSkipRowGroup with
    | none => rowGroupsMatchingOffsets
    | some canSkip => rowGroupsMatchingOffsets.filter (fun i => !(file.rowGroups[i]?.any canSkip))
  let dataStream ← builder.makeFinalStream file matchingRowGroups (builder.fieldIdsForData path.toPartitionLayerFile)
  let filterStream ← builder.makeFinalStream file matchingRowGroups builder.fieldIdsForFilter
  return {
    filterStream := filterStream
    dataStream := dataStream
    rowFilter := builder.rowFilter
    partitionLayerFile := path.toPartitionLayerFile
  }

/-- `Build`: the stream, and the cache of deletion vectors after the call. -/
def build (cache : DvCache (DeletionVector roaring)) (path : AnnotatedDataPath) :
    Except String (DataFileStream roaring) × DvCache (DeletionVector roaring) :=
  match builder.makeFilteringStream path with
  | .error message => (.error message, cache)
  | .ok input =>
    let cached := buildDv builder.openDeletionVector { path := path.path, deletionVector := path.dvInfo } cache
    (cached.1.map (fun dv => { input := input, dv := dv }), cached.2)

end ScanFileReaderBuilder

/-! ### All data files -/

structure DataScanner (roaring : RoaringLibrary) where
  metaStream : List AnnotatedDataPath
  currentDataStream : Option (DataFileStream roaring) := none
  cache : DvCache (DeletionVector roaring) := {}

namespace DataScanner

variable {roaring : RoaringLibrary} (builder : ScanFileReaderBuilder roaring)

/-- The loop of `ReadNext` without a current stream. -/
def readMeta (cache : DvCache (DeletionVector roaring)) :
    List AnnotatedDataPath → ReadResult FilteredBatch × DataScanner roaring
  | [] => (.ended, { metaStream := [], cache := cache })
  | path :: paths =>
    match builder.build cache path with
    | (.error message, cache) => (.thrown message, { metaStream := paths, cache := cache })
    | (.ok stream, cache) =>
      match stream.readNext with
      | (.ended, _) => readMeta cache paths
      | (result, stream) => (result, { metaStream := paths, currentDataStream := some stream, cache := cache })

def readNext (scanner : DataScanner roaring) : ReadResult FilteredBatch × DataScanner roaring :=
  match scanner.currentDataStream with
  | none => readMeta builder scanner.cache scanner.metaStream
  | some stream =>
    match stream.readNext with
    | (.ended, _) => readMeta builder scanner.cache scanner.metaStream
    | (result, stream) => (result, { scanner with currentDataStream := some stream })

end DataScanner

/-! ### The whole stream -/

/-- A batch for the positional deletes, whose selection is ascending. -/
def FilteredBatch.rowBatch (batch : FilteredBatch) : Option RowBatch :=
  if h : batch.selectionVector.Pairwise (· < ·) ∧ ∀ row ∈ batch.selectionVector, row < batch.numRows then
    some {
      toIcebergBatch := batch.toIcebergBatch
      numRows := batch.numRows
      increasing := h.1
      inRange := h.2 }
  else none

structure IcebergScan (roaring : RoaringLibrary) where
  input : DataScanner roaring
  applier : PositionalDeleteApplier := {}

namespace IcebergScan

variable {roaring : RoaringLibrary} (Q : MinQueue PositionalDeleteStream.Reader.getPosition)
  (builder : ScanFileReaderBuilder roaring) (deletes : PositionalDeletes) (cb : Bytes → DeleteFile)

/-- The positional deletes over one batch. There is no applier without delete entries. -/
def applyPositionalDeletes (applier : PositionalDeleteApplier) (batch : FilteredBatch) :
    ReadResult FilteredBatch × PositionalDeleteApplier :=
  if deletes.deleteEntries.entries.isEmpty then (.batch batch, applier)
  else
    match batch.rowBatch with
    | none => (.thrown "SelectionVector: rows are not ascending", applier)
    | some rows =>
      match applier.readNext Q deletes cb { batch := rows } with
      | (.error message, applier) => (.thrown message, applier)
      | (.ok rows, applier) => (.batch { toIcebergBatch := rows.toIcebergBatch, numRows := rows.numRows }, applier)

/-- `ReadNext` of the stream that `MakeIcebergStream` returns. `IcebergProjectionStream` on top of it makes the
projection of a batch and returns the batch with all its columns. -/
def readNext (scan : IcebergScan roaring) : ReadResult FilteredBatch × IcebergScan roaring :=
  match scan.input.readNext builder with
  | (.batch batch, input) =>
    let applied := applyPositionalDeletes Q deletes cb scan.applier batch
    (applied.1, { input := input, applier := applied.2 })
  | (result, input) => (result, { scan with input := input })

end IcebergScan

/-! ### The plan -/

/-- `std::sort` of data entries by their path. -/
structure DataEntrySort where
  sort : List DataEntry → List DataEntry
  perm : ∀ l, (sort l).Perm l
  sorted : ∀ l, (sort l).Pairwise (fun a b => a.path ≤ b.path)

def annotatedDataPath (partitionId layerId : Nat) (dataEntry : DataEntry) : AnnotatedDataPath where
  partition := partitionId
  layer := layerId
  path := dataEntry.path
  segments := dataEntry.parts
  dvInfo := dataEntry.dv

/-- `MetaStream::InitializeAllEntries`: the layers of a partition from the last one to the first one. -/
def initializeAllEntries (sort : DataEntrySort) (plan : ScanMetadata) : List AnnotatedDataPath :=
  plan.partitions.zipIdx.flatMap (fun (partition, partitionId) =>
    partition.zipIdx.reverse.flatMap (fun (layer, layerId) =>
      (sort.sort layer.dataEntries).map (annotatedDataPath partitionId layerId)))

/-- The positional deletes of a plan, as the callers of `MakeIcebergStream` collect them. -/
def positionalDeletesOf (plan : ScanMetadata) : PositionalDeletes where
  deleteEntries := plan.partitions.zipIdx.foldl (fun deleteEntries (partition, partitionId) =>
    partition.zipIdx.foldl (fun deleteEntries (layer, layerId) =>
      deleteEntries.alter (partitionId : Int) (fun layers =>
        (layers.getD ∅).insert (layerId : Int) layer.positionalDeleteEntries)) deleteEntries) ∅

end IcebergCxx
