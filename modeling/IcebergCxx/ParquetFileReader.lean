import IcebergCxx.Basic

/-!
# Row positions

`row_group_reader.h` and `file_reader.h`: the batches of a row group are numbered from the rows of the file before the
group on, and the readers of the row groups are made one after the other when they are needed. A row stands for its
values in the columns that are read.
-/

namespace IcebergCxx

open Lib

variable {Row : Type}

/-- An open Parquet file: the rows of its row groups, whose number the format stores in 64 bits, and the batches that
`GetRecordBatchReader` gives for each of them, however it splits the rows. -/
structure ParquetInput (Row : Type) where
  rowGroups : List (List Row)
  recordBatches : Nat → List (List Row)
  numRows_fit : ((rowGroups.map List.length).sum : Int) ≤ int64Max
  recordBatches_rows : ∀ i rows, rowGroups[i]? = some rows → (recordBatches i).flatten = rows

/-- `ArrowBatchWithRowPosition`. -/
structure PositionedBatch (Row : Type) where
  batch : List Row
  rowPosition : Int

/-- `RowGroupReaderWithRowNumber`, with the batches that its reader has left. -/
structure RowGroupReaderWithRowNumber (Row : Type) where
  rgReader : List (List Row)
  currentRow : Int

namespace RowGroupReaderWithRowNumber

def make (inputFile : ParquetInput Row) (rowGroupToRead : Nat) : Except String (RowGroupReaderWithRowNumber Row) := do
  ensure (rowGroupToRead < inputFile.rowGroups.length) "row group index out of bounds"
  return {
    rgReader := inputFile.recordBatches rowGroupToRead
    currentRow := (inputFile.rowGroups.take rowGroupToRead).foldl
      (fun currentRow rows => wrapInt64 (currentRow + rows.length)) 0 }

/-- `ReadNext`. -/
def readNext (reader : RowGroupReaderWithRowNumber Row) :
    Option (PositionedBatch Row) × RowGroupReaderWithRowNumber Row :=
  match reader.rgReader with
  | [] => (none, reader)
  | batch :: rest =>
    (some ⟨batch, reader.currentRow⟩, { rgReader := rest, currentRow := wrapInt64 (reader.currentRow + batch.length) })

end RowGroupReaderWithRowNumber

/-- `ParquetFileReader`, with the row groups from `next_position_in_row_group_array_` on. -/
structure ParquetFileReader (Row : Type) where
  rowGroups : List Nat
  currentStream : Option (RowGroupReaderWithRowNumber Row) := none

namespace ParquetFileReader

/-- The loop of `ReadNext` from where it has no stream. -/
def openNext (inputFile : ParquetInput Row) :
    List Nat → Except String (Option (PositionedBatch Row) × ParquetFileReader Row)
  | [] => .ok (none, { rowGroups := [] })
  | rowGroup :: rowGroups => do
    let stream ← RowGroupReaderWithRowNumber.make inputFile rowGroup
    match stream.readNext with
    | (some batch, stream) => return (some batch, { rowGroups := rowGroups, currentStream := some stream })
    | (none, _) => openNext inputFile rowGroups

/-- `ReadNext`. -/
def readNext (inputFile : ParquetInput Row) (reader : ParquetFileReader Row) :
    Except String (Option (PositionedBatch Row) × ParquetFileReader Row) :=
  match reader.currentStream with
  | none => openNext inputFile reader.rowGroups
  | some stream =>
    match stream.readNext with
    | (some batch, stream) => .ok (some batch, { reader with currentStream := some stream })
    | (none, _) => openNext inputFile reader.rowGroups

end ParquetFileReader

end IcebergCxx
