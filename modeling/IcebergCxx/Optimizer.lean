import IcebergCxx.ScanMetadata
import IcebergCxx.Lib.Scanline

/-!
# The positional delete optimizer and the plan

`PositonalDeleteOptimizer` splits a partition into buckets of data files and positional
deletes whose path ranges do not intersect. `RemoveDanglingDeletes` turns the layers into the
plan, and `GetResult` puts the steps together.
-/

namespace IcebergCxx

open Lib

/-! ### Scanline events -/

/-- `PositonalDeleteOptimizer::Event`; the marks are `kStartPositionalDelete`, `kDataFile` and
`kEndPositionalDelete`. -/
abbrev Event := ScanEvent Bytes

/-- `Event::CreateFromDelete`. -/
def createFromDelete (del : PositionalDeleteWithExtraInfo) : Except String (Event × Event) :=
  match del.minMaxReferencedPath with
  | none => .error "CreateFromDelete: internal error"
  | some (min, max) => .ok (⟨.opening, min⟩, ⟨.closing, max⟩)

/-- `Event::CreateFromData`. -/
def createFromData (data : DataEntry) : Event := ⟨.point, data.path⟩

/-- `GetEventsInPartition`. -/
def getEventsInPartition : List LayerWithExtraInfo → Except String (List Event)
  | [] => .ok []
  | layer :: partition => do
    let deletes ← layer.positionalDeleteEntries.mapM createFromDelete
    let rest ← getEventsInPartition partition
    .ok (deletes.flatMap (fun (start, finish) => [start, finish]) ++ layer.dataEntries.map createFromData ++ rest)

/-- The loop of `FindBucketLowerBounds` over the sorted events. -/
def scanEvents : List Event → Nat → List Bytes → Except String (List Bytes)
  | [], balance, bucketLowerBounds => do
    ensure (balance = 0) "FindBucketLowerBounds: internal error"
    .ok bucketLowerBounds
  | event :: events, balance, bucketLowerBounds =>
    let bucketLowerBounds := if balance = 0 then bucketLowerBounds ++ [event.position] else bucketLowerBounds
    match event.mark with
    | .opening => scanEvents events (balance + 1) bucketLowerBounds
    | .point => scanEvents events balance bucketLowerBounds
    | .closing => do
      ensure (0 < balance) "FindBucketLowerBounds: internal error"
      scanEvents events (balance - 1) bucketLowerBounds

/-- `FindBucketLowerBounds`. -/
def findBucketLowerBounds (partition : List LayerWithExtraInfo) : Except String (List Bytes) := do
  let events ← getEventsInPartition partition
  scanEvents (events.insertionSort ScanEvent.le) 0 []

/-! ### Buckets -/

/-- `CalculateBucketByPath`. -/
def calculateBucketByPath (bucketLowerBounds : List Bytes) (path : Bytes) : Except String Nat := do
  let it := upperBound bucketLowerBounds path
  ensure (it ≠ 0) "CalculateBucketByPath: internal error"
  .ok (it - 1)

/-- `AppendDataFileToBucket`: a layer that already has deletes gets no more data. -/
def appendDataFileToBucket (bucket : List LayerWithExtraInfo) (data : DataEntry) : List LayerWithExtraInfo :=
  match bucket.getLast? with
  | none => [{ dataEntries := [data] }]
  | some back =>
    if back.positionalDeleteEntries.isEmpty then
      bucket.dropLast ++ [{ back with dataEntries := back.dataEntries ++ [data] }]
    else bucket ++ [{ dataEntries := [data] }]

/-- `AppendDeleteFileToBucket`. -/
def appendDeleteFileToBucket (bucket : List LayerWithExtraInfo) (del : PositionalDeleteWithExtraInfo) :
    List LayerWithExtraInfo :=
  match bucket.getLast? with
  | none => [{ positionalDeleteEntries := [del] }]
  | some back =>
    bucket.dropLast ++ [{ back with positionalDeleteEntries := back.positionalDeleteEntries ++ [del] }]

/-- Puts a data file into its bucket. -/
def redistributeData (bucketLowerBounds : List Bytes) (newPartitions : List (List LayerWithExtraInfo))
    (data : DataEntry) : Except String (List (List LayerWithExtraInfo)) := do
  let group ← calculateBucketByPath bucketLowerBounds data.path
  .ok (newPartitions.modify group (fun bucket => appendDataFileToBucket bucket data))

/-- Puts a delete file into the bucket of both ends of its range. -/
def redistributeDelete (bucketLowerBounds : List Bytes) (newPartitions : List (List LayerWithExtraInfo))
    (del : PositionalDeleteWithExtraInfo) : Except String (List (List LayerWithExtraInfo)) :=
  match del.minMaxReferencedPath with
  | none => .error "bad optional access"
  | some (min, max) => do
    let bucket1 ← calculateBucketByPath bucketLowerBounds min
    let bucket2 ← calculateBucketByPath bucketLowerBounds max
    ensure (bucket1 = bucket2) "RedistributeDataIntoBuckets: internal error"
    .ok (newPartitions.modify bucket1 (fun bucket => appendDeleteFileToBucket bucket del))

/-- `RedistributeDataIntoBuckets`. -/
def redistributeDataIntoBuckets (bucketLowerBounds : List Bytes) (partition : List LayerWithExtraInfo) :
    Except String (List (List LayerWithExtraInfo)) :=
  partition.foldlM (fun newPartitions layer => do
    let newPartitions ← layer.dataEntries.foldlM (redistributeData bucketLowerBounds) newPartitions
    layer.positionalDeleteEntries.foldlM (redistributeDelete bucketLowerBounds) newPartitions)
    (List.replicate bucketLowerBounds.length [])

/-- `CanOptimizePartition`. -/
def canOptimizePartition (partition : List LayerWithExtraInfo) : Bool :=
  let hasPositionalDelete := partition.any (fun layer => !layer.positionalDeleteEntries.isEmpty)
  let hasPositionalDeleteWithoutStats := partition.any (fun layer =>
    layer.positionalDeleteEntries.any (fun entry => entry.minMaxReferencedPath.isNone))
  let hasEqualityDelete := partition.any (fun layer => !layer.equalityDeleteEntries.isEmpty)
  hasPositionalDelete && !hasPositionalDeleteWithoutStats && !hasEqualityDelete

/-- `OptimizePartition`. -/
def optimizePartition (partition : List LayerWithExtraInfo) : Except String (List (List LayerWithExtraInfo)) := do
  let bucketLowerBounds ← findBucketLowerBounds partition
  redistributeDataIntoBuckets bucketLowerBounds partition

/-- `PositonalDeleteOptimizer::CanOptimize`. -/
def canOptimize (partitions : List (List LayerWithExtraInfo)) : Bool := partitions.any canOptimizePartition

/-- `PositonalDeleteOptimizer::Optimize`. -/
def optimize : List (List LayerWithExtraInfo) → Except String (List (List LayerWithExtraInfo))
  | [] => .ok []
  | partition :: partitions => do
    let newPartitions ← (if canOptimizePartition partition then optimizePartition partition else .ok [partition])
    let rest ← optimize partitions
    .ok (newPartitions ++ rest)

/-! ### Dangling deletes -/

/-- `std::set<std::string>`, as its elements in order. -/
abbrev PathSet := OrdMap Bytes Unit

/-- Whether the delete's range contains no path of the set; without a range it is kept. -/
def isDangling (dataPaths : PathSet) (posDelete : PositionalDeleteWithExtraInfo) : Bool :=
  match posDelete.minMaxReferencedPath with
  | none => false
  | some (minReferencedPath, maxReferencedPath) =>
    lowerBound dataPaths.keys minReferencedPath = upperBound dataPaths.keys maxReferencedPath

/-- The layers of one partition, from the first on; `dataPaths` are the paths seen so far. -/
def removeDanglingInLayers : PathSet → List LayerWithExtraInfo → Partition
  | _, [] => []
  | dataPaths, layer :: layers =>
    let dataPaths := layer.dataEntries.foldl (fun paths data => paths.insert data.path ()) dataPaths
    let resultLayer : Layer := {
      dataEntries := layer.dataEntries
      positionalDeleteEntries := (layer.positionalDeleteEntries.filter (fun posDelete =>
        !isDangling dataPaths posDelete)).map PositionalDeleteWithExtraInfo.positionalDelete
      equalityDeleteEntries := layer.equalityDeleteEntries }
    let rest := removeDanglingInLayers dataPaths layers
    if resultLayer.empty then rest else resultLayer :: rest

/-- `RemoveDanglingDeletes`. Partitions without data files are dropped. -/
def removeDanglingDeletes (partitions : List (List LayerWithExtraInfo)) : List Partition :=
  (partitions.filter (fun layers => !layers.all (fun layer => layer.dataEntries.isEmpty))).map
    (removeDanglingInLayers ∅)

/-- `ScanMetadataBuilder::GetPartitions`. -/
def getPartitions (partitions : OrdMap Bytes (OrdMap SequenceNumber LayerWithExtraInfo)) :
    Except String (List Partition) := do
  let metaAsVec := mapToVec partitions
  let metaAsVec ← (if canOptimize metaAsVec then optimize metaAsVec else .ok metaAsVec)
  .ok (removeDanglingDeletes metaAsVec)

/-- `ScanMetadataBuilder::GetResult`. -/
def ScanMetadataBuilder.getResult (builder : ScanMetadataBuilder) : Except String ScanMetadata := do
  let partitions ← builder.partitions.mapValsM (fun _ layers =>
    resolveDeletionVectors (applyGlobalEqualityDeletes builder.globalEqualityDeletes layers))
  let partitions ← getPartitions partitions
  .ok { schema := builder.tableMetadata.currentSchema, partitions := partitions }

end IcebergCxx
