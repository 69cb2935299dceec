import IcebergCxx.IcebergStream

/-!
# The filtering stream

`FilteringStream` reads the columns of the row filter first and the other columns of a batch only
when a row of it is selected: batches without such a row are counted, and as many rows of the data
stream are passed over before the next batch is put together. A stream that has ended gives null
from then on.
-/

namespace IcebergCxx

open Lib

/-- `ArrowBatchWithRowPosition`. -/
structure ArrowBatchWithRowPosition where
  columns : List (Bytes × KeyArray)
  numRows : Nat
  rowPosition : Int

/-- `IRowFilter::ApplyFilter`: the selected rows, or an exception. -/
abbrev ApplyRowFilter := ArrowBatchWithRowPosition → Except String (List Nat)

/-- `PassThroughFilter`. -/
def passThroughFilter : ApplyRowFilter := fun batch => .ok (List.range batch.numRows)

def concatenate (a b : ArrowBatchWithRowPosition) : Except String ArrowBatchWithRowPosition := do
  ensure (a.rowPosition = b.rowPosition) "Concatenate: batches' row positions are different"
  ensure (a.numRows = b.numRows) "Concatenate: batches have different sizes"
  return {
    columns := a.columns ++ b.columns
    numRows := a.numRows
    rowPosition := a.rowPosition
  }

/-- An `IcebergBatch` with the number of its rows. -/
structure FilteredBatch extends IcebergBatch where
  numRows : Nat

/-- How a call of `ReadNext` ends: a null pointer that is dereferenced ends the process. -/
inductive ReadResult (α : Type)
  | batch (b : α)
  | ended
  | thrown (message : String)
  | nullDereference

structure FilteringStream where
  filterStream : List ArrowBatchWithRowPosition
  dataStream : List ArrowBatchWithRowPosition
  rowFilter : ApplyRowFilter
  partitionLayerFile : PartitionLayerFile
  rowsSkipped : Int := 0

namespace FilteringStream

/-- The loop over the data stream: the rows that are still to be skipped, and the batches left. -/
def skipRows : Int → List ArrowBatchWithRowPosition → Int × List ArrowBatchWithRowPosition
  | rowsSkipped, [] => (rowsSkipped, [])
  | rowsSkipped, batchData :: rest =>
    if rowsSkipped > 0 then skipRows (rowsSkipped - batchData.numRows) rest else (rowsSkipped, batchData :: rest)

/-- The end of a call that found a selected row, after the loop over the data stream. -/
def pairWith (stream : FilteringStream) (batchFilter : ArrowBatchWithRowPosition) (selectionVector : List Nat) :
    ReadResult FilteredBatch × FilteringStream :=
  if stream.rowsSkipped > 0 then
    (.thrown "ReadNext: internal error. data_stream has ended before filter_stream", stream)
  else if stream.rowsSkipped ≠ 0 then
    (.thrown "ReadNext: internal error. data_stream batch sizes don't match filter_stream batch sizes.", stream)
  else
    match stream.dataStream with
    | [] => (.nullDereference, stream)
    | batchData :: rest =>
      match concatenate batchData batchFilter with
      | .error message => (.thrown message, { stream with dataStream := rest })
      | .ok result =>
        (.batch {
            toPartitionLayerFile := stream.partitionLayerFile
            rowPosition := result.rowPosition
            columns := result.columns
            selectionVector := selectionVector
            numRows := result.numRows
          }, { stream with dataStream := rest })

/-- The stream after the loop over the data stream. -/
def skipped (stream : FilteringStream) : FilteringStream :=
  { stream with
    rowsSkipped := (skipRows stream.rowsSkipped stream.dataStream).1
    dataStream := (skipRows stream.rowsSkipped stream.dataStream).2 }

/-- The loop of `ReadNext` over the batches of the filter stream. -/
def readFrom (stream : FilteringStream) : List ArrowBatchWithRowPosition → ReadResult FilteredBatch × FilteringStream
  | [] => (.ended, { stream with filterStream := [] })
  | batchFilter :: rest =>
    match stream.rowFilter batchFilter with
    | .error message => (.thrown message, { stream with filterStream := rest })
    | .ok [] => readFrom { stream with rowsSkipped := stream.rowsSkipped + batchFilter.numRows } rest
    | .ok selectionVector => pairWith { stream.skipped with filterStream := rest } batchFilter selectionVector

def readNext (stream : FilteringStream) : ReadResult FilteredBatch × FilteringStream :=
  stream.readFrom stream.filterStream

/-- The stream after some calls. -/
def after (stream : FilteringStream) : Nat → FilteringStream
  | 0 => stream
  | n + 1 => (stream.after n).readNext.2

/-- The result of a call, counted from 0. -/
def result (stream : FilteringStream) (n : Nat) : ReadResult FilteredBatch := (stream.after n).readNext.1

end FilteringStream

end IcebergCxx
