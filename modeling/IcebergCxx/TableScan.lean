import IcebergCxx.ConcurrentPlanner
import IcebergCxx.Manifest
import IcebergCxx.ManifestList

/-!
# Planning on one thread and on several

With `threads_num = 0` the entries of all manifests go through one stream into the planner; delete
manifests are read whole, with their own schema. Otherwise a task reads each manifest as it is asked for and
submits a task for each of its entries.
-/

namespace IcebergCxx

open Lib

/-- What `GetScanMetadata` is given: the files, the libraries that decode them, the parsed table metadata, the
answer of `use_avro_reader_schema` and the fields to extract. There is no filter on statistics. -/
structure ScanRequest where
  avro : AvroLibrary
  json : JsonLibrary
  getInt : Option Json → Except String Int
  readFile : Bytes → Except String avro.File
  tableMetadata : TableMetadata
  useReaderSchema : Bool
  config : ManifestEntryDeserializerConfig

def addSequenceNumberOrFail (manifest : ManifestFile) (entry : ManifestEntry) : Except String ManifestEntry :=
  let entry := if entry.sequenceNumber.isNone ∧ entry.status = .added then
    { entry with sequenceNumber := some manifest.sequenceNumber.toInt }
    else entry
  if entry.sequenceNumber.isSome then .ok entry
  else .error ("No sequence_number in iceberg::ManifestEntry for data file " ++ text entry.dataFile.filePath)

namespace ScanRequest

variable (request : ScanRequest)

/-- `GetCurrentManifestListPathOrFail` and `GetManifestFiles`. -/
def getManifestFiles : Except String (List ManifestFile) :=
  match request.tableMetadata.currentManifestListPath with
  | none => .error "Manifest list path is not found"
  | some manifestListPath => do
    let input ← request.readFile manifestListPath
    readManifestList request.avro input

/-- `GetPartitionSpecById` and `GetFieldsFromPartitionSpec`. -/
def partitionFields (manifestFile : ManifestFile) : Except String (List PartitionKeyField) :=
  match request.tableMetadata.partitionSpecs.find? (fun spec => spec.specId = manifestFile.partitionSpecId.toInt) with
  | none =>
    .error ("GetPartitionSpecById: partition spec id is not found: " ++ toString manifestFile.partitionSpecId.toInt)
  | some spec =>
    match getFieldsFromPartitionSpec spec request.tableMetadata.currentSchema with
    | none => .error ("failed to parse partition_spec_id " ++ toString manifestFile.partitionSpecId.toInt)
    | some fields => .ok fields

/-! ### One thread -/

/-- `ManifestEntryStream`: the data it will deserialize. -/
def manifestEntryStream (input : request.avro.File) (partitionSpec : List PartitionKeyField)
    (config : ManifestEntryDeserializerConfig) (useReaderSchema : Bool) : Except String (List AvroDatum) := do
  let schema ← manifestReaderSchema request.avro input partitionSpec config useReaderSchema
  validatePartitionSpec partitionSpec (request.avro.dataSchema input)
  request.avro.readFile input schema

/-- The fields that the stream of a manifest extracts. -/
def streamConfig (manifestFile : ManifestFile) : ManifestEntryDeserializerConfig :=
  if manifestFile.content = .deletes then {} else request.config

/-- `GetManifestEntryStream`. -/
def getManifestEntryStream (manifestFile : ManifestFile) : Except String (List AvroDatum) := do
  let input ← request.readFile manifestFile.path
  let partitionSpec ← request.partitionFields manifestFile
  request.manifestEntryStream input partitionSpec (request.streamConfig manifestFile)
    (if manifestFile.content = .deletes then false else request.useReaderSchema)

/-- `EntryStream::ReadNext` on one datum, and the planner's `AddEntry` on what it gives. -/
def addStreamed (manifestFile : ManifestFile) (planner : ReferencedDataFileAwareScanPlanner) (datum : AvroDatum) :
    Except String ReferencedDataFileAwareScanPlanner := do
  let entry ← deserializeManifestEntry (request.streamConfig manifestFile) datum
  let entry ← addSequenceNumberOrFail manifestFile entry
  if entry.status = .deleted then .ok planner
  else planner.addEntry entry

/-- The part of `AllEntriesStream` that comes from one manifest. -/
def addManifest (planner : ReferencedDataFileAwareScanPlanner) (manifestFile : ManifestFile) :
    Except String ReferencedDataFileAwareScanPlanner := do
  let data ← request.getManifestEntryStream manifestFile
  data.foldlM (request.addStreamed manifestFile) planner

/-- `GetScanMetadata` with `threads_num = 0`. -/
def getScanMetadataSingleThreaded : Except String ScanMetadata := do
  let manifestFiles ← request.getManifestFiles
  let planner ← manifestFiles.foldlM request.addManifest (.make request.tableMetadata)
  planner.getResult

/-! ### Several threads -/

/-- `GetManifest`. -/
def getManifest (manifestFile : ManifestFile) : Except String Manifest := do
  let input ← request.readFile manifestFile.path
  let partitionSpec ← request.partitionFields manifestFile
  readManifestEntries request.avro request.json request.getInt input partitionSpec request.config
    request.useReaderSchema

end ScanRequest

/-- Where a `ManifestFileTask` stands. -/
inductive ManifestFileTaskPhase
  | queued
  | submitting (entries : List ManifestEntry)
  | returned
  | failed (message : String)

structure ManifestFileTask where
  manifestFile : ManifestFile
  phase : ManifestFileTaskPhase := .queued

def ManifestFileTask.failure (task : ManifestFileTask) : Option String :=
  match task.phase with
  | .failed message => some message
  | _ => none

def ManifestFileTask.finished (task : ManifestFileTask) : Bool :=
  match task.phase with
  | .queued | .submitting _ => false
  | .returned | .failed _ => true

/-- The tasks that read manifests, and the planner with the calls they have submitted. -/
structure MultiThreadedPlanning where
  tasks : List ManifestFileTask
  scanMetadataBuilder : ReferencedDataFileAwareScanPlannerMT

/-- A worker goes on with a manifest or with an entry. -/
inductive PlanningAction
  | manifest (index : Nat)
  | entry (index : Nat)

namespace MultiThreadedPlanning

def start (request : ScanRequest) (manifestFiles : List ManifestFile) : MultiThreadedPlanning where
  tasks := manifestFiles.map (fun manifestFile => { manifestFile := manifestFile })
  scanMetadataBuilder := .start request.tableMetadata []

/-- The next step of a `ManifestFileTask`: its phase and the entry that it submits, if any. -/
def stepTask (request : ScanRequest) (task : ManifestFileTask) :
    Option (ManifestFileTaskPhase × Option ManifestEntry) :=
  match task.phase with
  | .queued =>
    match request.getManifest task.manifestFile with
    | .ok manifest => some (.submitting manifest.entries, none)
    | .error message => some (.failed message, none)
  | .submitting [] => some (.returned, none)
  | .submitting (entry :: entries) =>
    match addSequenceNumberOrFail task.manifestFile entry with
    | .ok entry => some (.submitting entries, some entry)
    | .error message => some (.failed message, none)
  | .returned | .failed _ => none

def submit (builder : ReferencedDataFileAwareScanPlannerMT) (entry : Option ManifestEntry) :
    ReferencedDataFileAwareScanPlannerMT :=
  { builder with calls := builder.calls ++ (entry.map (fun entry => { entry := entry })).toList }

def step (request : ScanRequest) (s : MultiThreadedPlanning) : PlanningAction → Option MultiThreadedPlanning
  | .manifest index =>
    match s.tasks[index]? with
    | none => none
    | some task => (stepTask request task).map (fun (phase, entry) =>
        { tasks := s.tasks.set index { task with phase := phase }
          scanMetadataBuilder := submit s.scanMetadataBuilder entry })
  | .entry index => (s.scanMetadataBuilder.step index).map (fun builder =>
      { s with scanMetadataBuilder := builder })

def finished (s : MultiThreadedPlanning) : Bool :=
  s.tasks.all ManifestFileTask.finished && s.scanMetadataBuilder.finished

/-- The first failed task over a manifest, or else the first failed status of an entry, or else the plan. -/
def result (s : MultiThreadedPlanning) : Except String ScanMetadata :=
  match s.tasks.findSome? ManifestFileTask.failure with
  | some message => .error message
  | none => s.scanMetadataBuilder.result

end MultiThreadedPlanning

/-- The results that `GetScanMetadataMultiThreaded` can give, over all orders in which the pool runs the tasks. -/
inductive GetScanMetadataMultiThreaded (request : ScanRequest) : Except String ScanMetadata → Prop
  | unread {message : String} (h : request.getManifestFiles = .error message) :
      GetScanMetadataMultiThreaded request (.error message)
  | planned {manifestFiles : List ManifestFile} {actions : List PlanningAction} {s : MultiThreadedPlanning}
      (h : request.getManifestFiles = .ok manifestFiles)
      (hrun : actions.foldlM (MultiThreadedPlanning.step request) (.start request manifestFiles) = some s)
      (hfinished : s.finished = true) : GetScanMetadataMultiThreaded request s.result

end IcebergCxx
