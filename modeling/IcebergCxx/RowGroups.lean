import IcebergCxx.ScanMetadata

/-!
# The row groups of a reader

`FileReaderBuilder::GetRowGroupsToRetrieve` walks over the row groups of a file and over the segments
of a reader at once, and takes the row groups that start in a segment. The sum of the offset and the
length of a segment does not overflow.
-/

namespace IcebergCxx

open Lib

/-- What `RowGroupMetaToFileOffset` reads of a row group: its `file_offset`, 0 when it is not set,
and the `data_page_offset` of its first column chunk. -/
structure RowGroupMetaData where
  fileOffset : Int
  dataPageOffset : Int
  deriving DecidableEq

def rowGroupMetaToFileOffset (rgMeta : RowGroupMetaData) : Except String Int :=
  if rgMeta.fileOffset = 0 then do
    ensure (rgMeta.dataPageOffset ≠ 0) "File offset is not set in file"
    return rgMeta.dataPageOffset
  else .ok rgMeta.fileOffset

/-- `SplitOffsets`, what a writer puts into the manifest entry of a file. -/
def splitOffsets (parquetMeta : List RowGroupMetaData) : List Int :=
  (parquetMeta.map RowGroupMetaData.fileOffset).insertionSort (· ≤ ·)

/-- The inner loop, on the segments from `last_not_mapped_part_id` on: whether the row group is
taken, and the segments that are left. -/
def mapRowGroup (fileOffset : Int) : List Segment → Bool × List Segment
  | [] => (false, [])
  | segment :: segments =>
    let segEnd := segment.offset + segment.length
    if segment.offset ≤ fileOffset ∧ (fileOffset < segEnd ∨ segment.length = 0) then (true, segment :: segments)
    else if fileOffset ≥ segEnd then mapRowGroup fileOffset segments
    else (false, segment :: segments)

/-- The outer loop from the row group with the number `i` on. -/
def rowGroupsFrom (i : Nat) (segments : List Segment) : List RowGroupMetaData → Except String (List Nat)
  | [] => .ok []
  | rgMeta :: rowGroups => do
    let fileOffset ← rowGroupMetaToFileOffset rgMeta
    let mapped := mapRowGroup fileOffset segments
    let rest ← rowGroupsFrom (i + 1) mapped.2 rowGroups
    return if mapped.1 then i :: rest else rest

/-- `GetRowGroupsToRetrieve`. -/
def getRowGroupsToRetrieve (metadata : List RowGroupMetaData) (segments : List Segment) : Except String (List Nat) :=
  rowGroupsFrom 0 segments metadata

end IcebergCxx
