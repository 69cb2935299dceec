import IcebergCxx.Optimizer

/-!
# The referenced-data-file aware planner

`ReferencedDataFileAwareScanPlanner` wraps the builder. When every positional delete says
which data file it belongs to and there are no equality deletes, the builder's plan is
rewritten into partitions of one data file with its own deletes.
-/

namespace IcebergCxx

open Lib

structure ReferencedDataFileAwareScanPlanner where
  builder : ScanMetadataBuilder
  deleteFilePathToReferencedDataFilePath : OrdMap Bytes Bytes := ∅
  allPosDeletesAnnotatedWithReferencedDataFile : Bool := true
  hasEqualityDelete : Bool := false
  hasReferencedDataFile : Bool := false

namespace ReferencedDataFileAwareScanPlanner

def make (tableMetadata : TableMetadata) : ReferencedDataFileAwareScanPlanner :=
  { builder := { tableMetadata := tableMetadata } }

/-- `HandlePositionDelete`, called with an annotated entry only. -/
def handlePositionDelete (planner : ReferencedDataFileAwareScanPlanner) (entry : ManifestEntry)
    (referencedDataFile : Bytes) : Except String ReferencedDataFileAwareScanPlanner :=
  let planner := { planner with hasReferencedDataFile := true }
  if entry.dataFile.fileFormat = deletionVectorFormat then .ok planner
  else if planner.deleteFilePathToReferencedDataFilePath.contains entry.dataFile.filePath then
    .error ("Two delete files with same path: " ++ text entry.dataFile.filePath)
  else .ok { planner with
    deleteFilePathToReferencedDataFilePath :=
      planner.deleteFilePathToReferencedDataFilePath.insert entry.dataFile.filePath referencedDataFile }

/-- What `AddEntry` records about the kinds of deletes. -/
def noteEntry (planner : ReferencedDataFileAwareScanPlanner) (entry : ManifestEntry) :
    Except String ReferencedDataFileAwareScanPlanner :=
  match entry.dataFile.content with
  | .data => .ok planner
  | .equalityDeletes => .ok { planner with hasEqualityDelete := true }
  | .positionDeletes =>
    match entry.dataFile.referencedDataFile with
    | some referencedDataFile => planner.handlePositionDelete entry referencedDataFile
    | none => .ok { planner with allPosDeletesAnnotatedWithReferencedDataFile := false }

def addEntry (planner : ReferencedDataFileAwareScanPlanner) (entry : ManifestEntry) :
    Except String ReferencedDataFileAwareScanPlanner :=
  if entry.status = .deleted then .ok planner
  else do
    let planner ← planner.noteEntry entry
    let builder ← planner.builder.addEntry entry
    .ok { planner with builder := builder }

/-- `AddEntry` on one entry after another, until the first failure. -/
def addEntries (planner : ReferencedDataFileAwareScanPlanner) (entries : List ManifestEntry) :
    Except String ReferencedDataFileAwareScanPlanner :=
  entries.foldlM addEntry planner

end ReferencedDataFileAwareScanPlanner

/-! ### The rewrite -/

/-- The two maps `HandlePartition` fills, both by the path of the data file. -/
structure PartitionMaps where
  dataFileNameToDataEntry : OrdMap Bytes (DataEntry × Nat) := ∅
  dataFileNameToPosdelEntries : OrdMap Bytes (List (PositionalDeleteInfo × Nat)) := ∅

def collectDataEntry (layerNo : Nat) (maps : PartitionMaps) (dataEntry : DataEntry) : Except String PartitionMaps :=
  if maps.dataFileNameToDataEntry.contains dataEntry.path then
    .error ("Error in iceberg metadata. There are at least two data entries with path " ++ text dataEntry.path)
  else .ok { maps with
    dataFileNameToDataEntry := maps.dataFileNameToDataEntry.insert dataEntry.path (dataEntry, layerNo) }

def collectDelEntry (referenced : OrdMap Bytes Bytes) (layerNo : Nat) (maps : PartitionMaps)
    (delEntry : PositionalDeleteInfo) : Except String PartitionMaps :=
  match referenced.find? delEntry.path with
  | none => .error ("HandlePartition: internal error for delete " ++ text delEntry.path)
  | some dataPath => .ok { maps with
      dataFileNameToPosdelEntries := maps.dataFileNameToPosdelEntries.alter dataPath (fun deletes =>
        deletes.getD [] ++ [(delEntry, layerNo)]) }

def collectLayer (referenced : OrdMap Bytes Bytes) (maps : PartitionMaps) (layer : Layer × Nat) :
    Except String PartitionMaps := do
  let maps ← layer.1.dataEntries.foldlM (collectDataEntry layer.2) maps
  layer.1.positionalDeleteEntries.foldlM (collectDelEntry referenced layer.2) maps

/-- The second loop of `HandlePartition`: a data file without deletes goes to the first layer
of the first partition, any other gets a partition of its own. -/
def emitDataEntry (maps : PartitionMaps) (partitions : List Partition) (entry : Bytes × DataEntry × Nat) :
    List Partition :=
  let (dataPath, dataEntry, dataLayerNo) := entry
  match maps.dataFileNameToPosdelEntries.find? dataPath, dataEntry.dv with
  | none, none =>
    partitions.modify 0 (fun partition => partition.modify 0 (fun layer =>
      { layer with dataEntries := layer.dataEntries ++ [dataEntry] }))
  | deletes, _ =>
    partitions ++ [[{
      dataEntries := [dataEntry]
      positionalDeleteEntries := ((deletes.getD []).filter (fun (_, delLayerNo) =>
        !decide (delLayerNo < dataLayerNo))).map Prod.fst }]]

/-- `HandlePartition`. -/
def handlePartition (referenced : OrdMap Bytes Bytes) (partitions : List Partition) (part : Partition) :
    Except String (List Partition) := do
  let maps ← part.zipIdx.foldlM (collectLayer referenced) {}
  .ok (maps.dataFileNameToDataEntry.entries.foldl (emitDataEntry maps) partitions)

/-- Removes the partition of data files without deletes when it has none. -/
def eraseEmptyFirst (partitions : List Partition) : List Partition :=
  match partitions with
  | (layer :: _) :: rest => if layer.dataEntries.isEmpty then rest else partitions
  | _ => partitions

/-- `ReferencedDataFileAwareScanPlanner::GetResult`. -/
def ReferencedDataFileAwareScanPlanner.getResult (planner : ReferencedDataFileAwareScanPlanner) :
    Except String ScanMetadata := do
  let scanMeta ← planner.builder.getResult
  if !planner.hasReferencedDataFile then .ok scanMeta
  else if planner.hasEqualityDelete then .ok scanMeta
  else if !planner.allPosDeletesAnnotatedWithReferencedDataFile then .ok scanMeta
  else do
    let partitions ← scanMeta.partitions.foldlM
      (handlePartition planner.deleteFilePathToReferencedDataFilePath) [[{}]]
    .ok { schema := scanMeta.schema, partitions := eraseEmptyFirst partitions }

end IcebergCxx
