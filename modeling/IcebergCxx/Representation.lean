import IcebergCxx.ScanMetadata

/-!
# Comparison of scan plans

`experimental_representations.cpp`: a plan is brought into a form in which the order of partitions
and of entries does not matter, and two plans are equal when their forms are. `operator+` and
`operator+=` of `DataEntry` are here too. Offsets and lengths are those of byte ranges in files, whose sums do not
overflow. `std::sort` leaves the order of segments with equal offsets open.
-/

namespace IcebergCxx

open Lib

/-- `std::sort` of segments by their offset. -/
structure SegmentSort where
  sort : List Segment → List Segment
  perm : ∀ l, (sort l).Perm l
  sorted : ∀ l, (sort l).Pairwise (fun a b => a.offset ≤ b.offset)

/-- No segment starts before the one in front of it. -/
def validateSegments : List Segment → Bool
  | [] => true
  | [_] => true
  | a :: b :: segments => !(b.offset < a.offset) && validateSegments (b :: segments)

/-- The loop of `UniteSegments` with a back segment. -/
def uniteFrom (back : Segment) : List Segment → List Segment
  | [] => [back]
  | part :: segments =>
    if back.length = 0 then [back]
    else if back.offset + back.length ≥ part.offset then
      if part.length ≠ 0 then
        uniteFrom { back with length := max (back.offset + back.length) (part.offset + part.length) - back.offset }
          segments
      else uniteFrom { back with length := 0 } segments
    else back :: uniteFrom part segments

def uniteSegments (segments : List Segment) : Except String (List Segment) := do
  ensure (validateSegments segments) "Segments should be sorted"
  match segments with
  | [] => return []
  | back :: segments => return uniteFrom back segments

/-- `operator+=`; the deletion vector stays that of the left entry. -/
def DataEntry.addAssign (sort : SegmentSort) (lhs other : DataEntry) : Except String DataEntry := do
  ensure (lhs.path = other.path)
    ("Pathes of left and right entries are not equals: " ++ text lhs.path ++ ", " ++ text other.path)
  let parts ← uniteSegments (sort.sort (lhs.parts ++ other.parts))
  return { lhs with parts := parts }

/-- `operator+=` with the left entry after it, also when it throws. -/
def DataEntry.addAssignInPlace (sort : SegmentSort) (lhs other : DataEntry) : Except String Unit × DataEntry :=
  if lhs.path = other.path then
    let parts := sort.sort (lhs.parts ++ other.parts)
    match uniteSegments parts with
    | .ok united => (.ok (), { lhs with parts := united })
    | .error message => (.error message, { lhs with parts := parts })
  else
    (.error ("Pathes of left and right entries are not equals: " ++ text lhs.path ++ ", " ++ text other.path), lhs)

/-- `operator+`: the result is made of the path and the segments. -/
def DataEntry.add (sort : SegmentSort) (lhs rhs : DataEntry) : Except String DataEntry := do
  ensure (lhs.path = rhs.path)
    ("Pathes of left and right entries are not equals: " ++ text lhs.path ++ ", " ++ text rhs.path)
  let allSegments ← uniteSegments (sort.sort (lhs.parts ++ rhs.parts))
  return { path := lhs.path, parts := allSegments }

inductive IcebergFile
  | positionalDelete (info : PositionalDeleteInfo)
  | dataEntry (entry : DataEntry)
  | equalityDelete (info : EqualityDeleteInfo)

/-- The last layer comes first, and in a layer the data entries. -/
def makeFlatFilesList (partition : Partition) : List IcebergFile :=
  partition.reverse.flatMap (fun layer =>
    layer.dataEntries.map .dataEntry ++ layer.positionalDeleteEntries.map .positionalDelete ++
      layer.equalityDeleteEntries.map .equalityDelete)

structure ScanMetadataRepresentation where
  schema : Schema
  positionalDeletesPerFile : OrdMap Bytes (Finset PositionalDeleteInfo)
  equalityDeletesPerFile : OrdMap Bytes (Finset EqualityDeleteInfo)
  dataEntriesPerFile : OrdMap Bytes DataEntry
  deriving DecidableEq

/-- Adds every element of a set to the set of a file; no set is made for no element. -/
def insertDeletes {α : Type} [DecidableEq α] (files : OrdMap Bytes (Finset α)) (fileName : Bytes) (deletes : Finset α) :
    OrdMap Bytes (Finset α) :=
  if deletes = ∅ then files else files.alter fileName (fun found => found.getD ∅ ∪ deletes)

/-- The deletes met so far in a partition, and the deletes of the files. -/
structure DeletesState where
  currentPositionalDeletes : Finset PositionalDeleteInfo := ∅
  currentEqualityDeletes : Finset EqualityDeleteInfo := ∅
  dataFileToPositionalDeletes : OrdMap Bytes (Finset PositionalDeleteInfo) := ∅
  dataFileToEqualityDeletes : OrdMap Bytes (Finset EqualityDeleteInfo) := ∅

def addFile (state : DeletesState) : IcebergFile → DeletesState
  | .positionalDelete info =>
    { state with currentPositionalDeletes := insert info state.currentPositionalDeletes }
  | .dataEntry entry =>
    { state with
      dataFileToPositionalDeletes :=
        insertDeletes state.dataFileToPositionalDeletes entry.path state.currentPositionalDeletes
      dataFileToEqualityDeletes :=
        insertDeletes state.dataFileToEqualityDeletes entry.path state.currentEqualityDeletes }
  | .equalityDelete info =>
    { state with currentEqualityDeletes := insert info state.currentEqualityDeletes }

/-- The loop over the flat list of a partition, which starts without deletes. -/
def addPartitionDeletes (state : DeletesState) (partition : Partition) : DeletesState :=
  (makeFlatFilesList partition).foldl addFile
    { state with currentPositionalDeletes := ∅, currentEqualityDeletes := ∅ }

/-- One round of the loop over the data entries. -/
def addDataEntry (sort : SegmentSort) (files : OrdMap Bytes DataEntry) (entry : DataEntry) :
    Except String (OrdMap Bytes DataEntry) :=
  match files.find? entry.path with
  | some found => do
    let united ← found.addAssign sort entry
    return files.insert entry.path united
  | none => .ok (files.emplace entry.path entry)

/-- The data entries of a plan in the order of the loops. -/
def ScanMetadata.dataEntries (scanMeta : ScanMetadata) : List DataEntry :=
  scanMeta.partitions.flatMap (fun partition => partition.flatMap Layer.dataEntries)

def makeRepresentation (sort : SegmentSort) (scanMeta : ScanMetadata) : Except String ScanMetadataRepresentation := do
  let deletes := scanMeta.partitions.foldl addPartitionDeletes {}
  let files ← scanMeta.dataEntries.foldlM (addDataEntry sort) ∅
  return {
    schema := scanMeta.schema
    positionalDeletesPerFile := deletes.dataFileToPositionalDeletes
    equalityDeletesPerFile := deletes.dataFileToEqualityDeletes
    dataEntriesPerFile := files }

def areScanMetadataEqual (sort : SegmentSort) (lhs rhs : ScanMetadata) : Except String Bool := do
  let left ← makeRepresentation sort lhs
  let right ← makeRepresentation sort rhs
  return left = right

end IcebergCxx
