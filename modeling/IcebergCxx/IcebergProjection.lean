import IcebergCxx.EqualityDeleteRetry
import IcebergCxx.IcebergScan

/-!
# The final projection

`IcebergScanBuilder::MakeIcebergStream` with all its layers: the batches of `DataScanner` go through
`EqualityDeleteApplier` and `PositionalDeleteApplier`, each of them only where there are deletes of its kind,
and at last through `IcebergProjectionStream`.
-/

namespace IcebergCxx

open Lib

/-- `MakeFinalProjection`: the names of the requested columns, each of them kept. -/
def makeFinalProjection (mapper : FieldIdMapper) (fieldIdsToRetrieve : List Int) : OrdMap Bytes Bytes :=
  fieldIdsToRetrieve.foldl (fun projection fieldId =>
    projection.insert (mapper.fieldIdToColumnName fieldId) (mapper.fieldIdToColumnName fieldId)) ∅

/-- The record batch of a batch, with its position. -/
def FilteredBatch.withRowPosition (batch : FilteredBatch) : ArrowBatchWithRowPosition where
  columns := batch.columns
  numRows := batch.numRows
  rowPosition := batch.rowPosition

/-- `IcebergProjectionStream::ReadNext`, for the batch that the input returned. What `MakeProjection` returns is not
used. -/
def icebergProjection (oldNameToNewName : OrdMap Bytes Bytes) (batch : FilteredBatch) : FilteredBatch :=
  let batchWithRowNumber := batch.withRowPosition
  let _batchAfterProjection := makeProjection oldNameToNewName batchWithRowNumber
  { toPartitionLayerFile := batch.toPartitionLayerFile
    rowPosition := batch.rowPosition
    columns := batchWithRowNumber.columns
    selectionVector := batch.selectionVector
    numRows := batchWithRowNumber.numRows }

/-- The stream that `MakeIcebergStream` returns. -/
structure ProjectedScan (roaring : RoaringLibrary) where
  input : DataScanner roaring
  equalityDeleteApplier : EqualityDeleteApplier := {}
  positionalDeleteApplier : PositionalDeleteApplier := {}

namespace ProjectedScan

variable {roaring : RoaringLibrary} (Q : MinQueue PositionalDeleteStream.Reader.getPosition)
  (ctx : EqualityDeleteContext) (builder : ScanFileReaderBuilder roaring) (deletes : PositionalDeletes)
  (cb : Bytes → DeleteFile)

/-- The equality deletes over one batch. There is no applier without deletes. -/
def applyEqualityDeletes (faults : Nat → Option LoadFault) (applier : EqualityDeleteApplier) (batch : FilteredBatch) :
    ReadResult FilteredBatch × EqualityDeleteApplier :=
  if builder.equalityDeletes.partlayerToDeletes.entries.isEmpty then (.batch batch, applier)
  else
    match applier.tryReadNext ctx builder.toFileReaderBuilder { batch := batch.toIcebergBatch, faults := faults } with
    | (.error message, applier) => (.thrown message, applier)
    | (.ok kept, applier) => (.batch { toIcebergBatch := kept, numRows := batch.numRows }, applier)

/-- `ReadNext` of the stream below the projection; `faults` are the failures while delete files are loaded. -/
def readInput (faults : Nat → Option LoadFault) (scan : ProjectedScan roaring) :
    ReadResult FilteredBatch × ProjectedScan roaring :=
  match scan.input.readNext builder with
  | (.batch batch, input) =>
    match applyEqualityDeletes ctx builder faults scan.equalityDeleteApplier batch with
    | (.batch batch, equalityDeleteApplier) =>
      let applied := IcebergScan.applyPositionalDeletes Q deletes cb scan.positionalDeleteApplier batch
      (applied.1, { input := input
                    equalityDeleteApplier := equalityDeleteApplier
                    positionalDeleteApplier := applied.2 })
    | (result, equalityDeleteApplier) =>
      (result, { scan with input := input, equalityDeleteApplier := equalityDeleteApplier })
  | (result, input) => (result, { scan with input := input })

def readNext (faults : Nat → Option LoadFault) (scan : ProjectedScan roaring) :
    ReadResult FilteredBatch × ProjectedScan roaring :=
  match scan.readInput Q ctx builder deletes cb faults with
  | (.batch batch, scan) =>
    (.batch (icebergProjection (makeFinalProjection builder.mapper builder.fieldIdsToRetrieve) batch), scan)
  | (result, scan) => (result, scan)

/-- The stream after some calls, whatever they gave. -/
def after (faults : Nat → Nat → Option LoadFault) (scan : ProjectedScan roaring) : Nat → ProjectedScan roaring
  | 0 => scan
  | n + 1 => ((scan.after faults n).readNext Q ctx builder deletes cb (faults n)).2

end ProjectedScan

/-! ### The deletes of a plan -/

/-- The equality deletes of a plan, as the callers of `MakeIcebergStream` collect them. -/
def equalityDeletesOf (plan : ScanMetadata) : EqualityDeletes where
  partlayerToDeletes := plan.partitions.zipIdx.foldl (fun partlayerToDeletes (partition, partitionId) =>
    partition.zipIdx.foldl (fun partlayerToDeletes (layer, layerId) =>
      partlayerToDeletes.alter (partitionId : Int) (fun layers =>
        (layers.getD ∅).insert (layerId : Int) layer.equalityDeleteEntries)) partlayerToDeletes) ∅

end IcebergCxx
