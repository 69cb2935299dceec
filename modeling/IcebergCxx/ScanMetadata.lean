import IcebergCxx.PartitionKey

/-!
# Scan metadata and its builder

`ScanMetadataBuilder` sorts live manifest entries into partitions and, inside a partition,
into layers by sequence number. `GetResult` then fans out the global equality deletes,
attaches deletion vectors, lets the positional delete optimizer split partitions and removes
deletes that reach no data file.
-/

namespace IcebergCxx

open Lib

abbrev SequenceNumber := Int

structure PositionalDeleteInfo where
  path : Bytes
  deriving DecidableEq

structure EqualityDeleteInfo where
  path : Bytes
  fieldIds : List Int
  deriving DecidableEq

structure DeletionVectorInfo where
  path : Bytes
  offset : Int
  length : Int
  referencedDataFile : Bytes
  deriving DecidableEq

/-- `DataEntry::Segment`; length 0 means until the end. -/
structure Segment where
  offset : Int
  length : Int
  deriving DecidableEq

structure DataEntry where
  path : Bytes
  parts : List Segment := []
  dv : Option DeletionVectorInfo := none
  deriving DecidableEq

/-- `ScanMetadata::Layer`. -/
structure Layer where
  dataEntries : List DataEntry := []
  positionalDeleteEntries : List PositionalDeleteInfo := []
  equalityDeleteEntries : List EqualityDeleteInfo := []
  deriving DecidableEq

def Layer.empty (layer : Layer) : Bool :=
  layer.dataEntries.isEmpty && layer.positionalDeleteEntries.isEmpty && layer.equalityDeleteEntries.isEmpty

/-- `ScanMetadata::Partition`. -/
abbrev Partition := List Layer

structure ScanMetadata where
  schema : Schema
  partitions : List Partition := []
  deriving DecidableEq

structure PositionalDeleteWithExtraInfo where
  positionalDelete : PositionalDeleteInfo
  minMaxReferencedPath : Option (Bytes × Bytes)
  deriving DecidableEq

structure LayerWithExtraInfo where
  dataEntries : List DataEntry := []
  positionalDeleteEntries : List PositionalDeleteWithExtraInfo := []
  equalityDeleteEntries : List EqualityDeleteInfo := []
  dvEntries : OrdMap Bytes DeletionVectorInfo := ∅
  deriving DecidableEq

structure ScanMetadataBuilder where
  tableMetadata : TableMetadata
  partitions : OrdMap Bytes (OrdMap SequenceNumber LayerWithExtraInfo) := ∅
  globalEqualityDeletes : OrdMap SequenceNumber (List EqualityDeleteInfo) := ∅
  deriving DecidableEq

/-! ### Adding entries -/

namespace ScanMetadataBuilder

/-- `partitions[key][sequence_number]`, rewritten in place; missing entries are created. -/
def modifyLayer (builder : ScanMetadataBuilder) (serializedPartitionKey : Bytes)
    (sequenceNumber : SequenceNumber) (f : LayerWithExtraInfo → LayerWithExtraInfo) : ScanMetadataBuilder :=
  { builder with
    partitions := builder.partitions.alter serializedPartitionKey (fun layers =>
      (layers.getD ∅).alter sequenceNumber (fun layer => f (layer.getD {}))) }

def addDataFile (builder : ScanMetadataBuilder) (serializedPartitionKey : Bytes)
    (sequenceNumber : SequenceNumber) (path : Bytes) (segments : List Segment) : ScanMetadataBuilder :=
  builder.modifyLayer serializedPartitionKey sequenceNumber (fun layer =>
    { layer with dataEntries := layer.dataEntries ++ [⟨path, segments, none⟩] })

def addPositionDeletes (builder : ScanMetadataBuilder) (serializedPartitionKey : Bytes)
    (sequenceNumber : SequenceNumber) (path : Bytes) (minMaxReferencedPath : Option (Bytes × Bytes)) :
    ScanMetadataBuilder :=
  builder.modifyLayer serializedPartitionKey sequenceNumber (fun layer =>
    { layer with positionalDeleteEntries := layer.positionalDeleteEntries ++ [⟨⟨path⟩, minMaxReferencedPath⟩] })

def addGlobalEqualityDeletes (builder : ScanMetadataBuilder) (sequenceNumber : SequenceNumber) (path : Bytes)
    (equalityIds : List Int) : ScanMetadataBuilder :=
  { builder with
    globalEqualityDeletes := builder.globalEqualityDeletes.alter (wrapInt64 (sequenceNumber - 1))
      (fun deletes => deletes.getD [] ++ [⟨path, equalityIds⟩]) }

def addEqualityDeletes (builder : ScanMetadataBuilder) (serializedPartitionKey : Bytes)
    (sequenceNumber : SequenceNumber) (path : Bytes) (equalityIds : List Int) : ScanMetadataBuilder :=
  builder.modifyLayer serializedPartitionKey (wrapInt64 (sequenceNumber - 1)) (fun layer =>
    { layer with equalityDeleteEntries := layer.equalityDeleteEntries ++ [⟨path, equalityIds⟩] })

def addDeletionVector (builder : ScanMetadataBuilder) (serializedPartitionKey : Bytes)
    (sequenceNumber : SequenceNumber) (path referencedDataFile : Bytes) (offset length : Int) :
    ScanMetadataBuilder :=
  builder.modifyLayer serializedPartitionKey sequenceNumber (fun layer =>
    { layer with dvEntries := layer.dvEntries.insert referencedDataFile ⟨path, offset, length, referencedDataFile⟩ })

end ScanMetadataBuilder

/-- The segments between consecutive split offsets; the last one reaches the end of the file. -/
def segmentsOfOffsets : List Int → List Segment
  | [] => []
  | [last] => [⟨last, 0⟩]
  | offset :: next :: rest => ⟨offset, wrapInt64 (next - offset)⟩ :: segmentsOfOffsets (next :: rest)

/-- The segments `StoreEntry` gives to a data file. -/
def segmentsOfFile (file : ContentFile) : List Segment :=
  if file.splitOffsets.isEmpty then [⟨4, 0⟩] else segmentsOfOffsets file.splitOffsets

/-- The field id of the `file_path` column of a positional delete file. -/
def filePathId : Int := 2147483546

/-- The range of referenced paths, when the file has both bounds of `file_path`. -/
def minMaxReferencedPath (file : ContentFile) : Option (Bytes × Bytes) :=
  match file.lowerBounds.find? filePathId, file.upperBounds.find? filePathId with
  | some minBytes, some maxBytes => some (minBytes, maxBytes)
  | _, _ => none

namespace ScanMetadataBuilder

/-- `StoreEntry`. An absent sequence number makes `std::optional::value` throw. -/
def storeEntry (builder : ScanMetadataBuilder) (serializedPartitionKey : Bytes) (entry : ManifestEntry) :
    Except String ScanMetadataBuilder :=
  match entry.sequenceNumber with
  | none => .error "bad optional access"
  | some sequenceNumber =>
    match entry.dataFile.content with
    | .data =>
      .ok (builder.addDataFile serializedPartitionKey sequenceNumber entry.dataFile.filePath
        (segmentsOfFile entry.dataFile))
    | .positionDeletes =>
      if entry.dataFile.fileFormat = deletionVectorFormat then
        match entry.dataFile.referencedDataFile, entry.dataFile.contentOffset,
          entry.dataFile.contentSizeInBytes with
        | none, _, _ => .error "Deletion Vector must have referenced_data_file set"
        | some _, none, _ => .error "Deletion Vector must have content_offset set"
        | some _, some _, none => .error "Deletion Vector must have content_size_in_bytes set"
        | some referencedDataFile, some contentOffset, some contentSizeInBytes =>
          .ok (builder.addDeletionVector serializedPartitionKey sequenceNumber entry.dataFile.filePath
            referencedDataFile contentOffset contentSizeInBytes)
      else
        .ok (builder.addPositionDeletes serializedPartitionKey sequenceNumber entry.dataFile.filePath
          (minMaxReferencedPath entry.dataFile))
    | .equalityDeletes =>
      if serializedPartitionKey.isEmpty then
        .ok (builder.addGlobalEqualityDeletes sequenceNumber entry.dataFile.filePath entry.dataFile.equalityIds)
      else
        .ok (builder.addEqualityDeletes serializedPartitionKey sequenceNumber entry.dataFile.filePath
          entry.dataFile.equalityIds)

def addEntry (builder : ScanMetadataBuilder) (entry : ManifestEntry) : Except String ScanMetadataBuilder :=
  if entry.status = .deleted then .ok builder
  else do
    checkPartitionTupleIsCorrect builder.tableMetadata entry
    builder.storeEntry (serializePartitionTuple entry.dataFile.partitionTuple) entry

/-- `AddEntry` on one entry after another, until the first failure. -/
def addEntries (builder : ScanMetadataBuilder) (entries : List ManifestEntry) :
    Except String ScanMetadataBuilder :=
  entries.foldlM addEntry builder

end ScanMetadataBuilder

/-! ### Global equality deletes and deletion vectors -/

/-- `ApplyGlobalEqualityDeletes`. -/
def applyGlobalEqualityDeletes (globalEqualityDeletes : OrdMap SequenceNumber (List EqualityDeleteInfo))
    (layers : OrdMap SequenceNumber LayerWithExtraInfo) : OrdMap SequenceNumber LayerWithExtraInfo :=
  globalEqualityDeletes.entries.foldl (fun layers (seqnum, deletes) =>
    layers.alter seqnum (fun layer =>
      { layer.getD {} with equalityDeleteEntries := (layer.getD {}).equalityDeleteEntries ++ deletes })) layers

/-- The deletion vector of every path, the one of the last layer that has any. -/
def currentDvs (layers : OrdMap SequenceNumber LayerWithExtraInfo) :
    OrdMap Bytes (DeletionVectorInfo × SequenceNumber) :=
  layers.entries.foldl (fun dvs (seqnum, layer) =>
    layer.dvEntries.entries.foldl (fun dvs (path, dv) => dvs.insert path (dv, seqnum)) dvs) ∅

/-- The body of the second loop of `ResolveDeletionVectors`. -/
def resolveDataEntry (dvs : OrdMap Bytes (DeletionVectorInfo × SequenceNumber)) (seqnum : SequenceNumber)
    (layer : LayerWithExtraInfo) (data : DataEntry) : Except String DataEntry :=
  match dvs.find? data.path with
  | none => .ok data
  | some (dv, dvSeqnum) =>
    if seqnum > dvSeqnum then .ok data
    else do
      ensure layer.equalityDeleteEntries.isEmpty
        ("Consistency error: Data file " ++ text data.path ++ " has Deletion Vector, but layer " ++
          toString seqnum ++ " also contains Equality Deletes. Mixed deletes are not allowed.")
      ensure layer.positionalDeleteEntries.isEmpty
        ("Consistency error: Data file " ++ text data.path ++ " has Deletion Vector, but layer " ++
          toString seqnum ++ " also contains Positional Deletes. Mixed deletes are not allowed.")
      .ok { data with dv := some dv }

def resolveLayer (dvs : OrdMap Bytes (DeletionVectorInfo × SequenceNumber)) (seqnum : SequenceNumber)
    (layer : LayerWithExtraInfo) : Except String LayerWithExtraInfo :=
  if dvs.entries.isEmpty then .ok layer
  else do
    let dataEntries ← layer.dataEntries.mapM (resolveDataEntry dvs seqnum layer)
    .ok { layer with dataEntries := dataEntries }

/-- `ResolveDeletionVectors`. -/
def resolveDeletionVectors (layers : OrdMap SequenceNumber LayerWithExtraInfo) :
    Except String (OrdMap SequenceNumber LayerWithExtraInfo) :=
  layers.mapValsM (resolveLayer (currentDvs layers))

/-- `MapToVec`. -/
def mapToVec (scanMetadata : OrdMap Bytes (OrdMap SequenceNumber LayerWithExtraInfo)) :
    List (List LayerWithExtraInfo) :=
  scanMetadata.values.map (fun partition => partition.values)

end IcebergCxx
