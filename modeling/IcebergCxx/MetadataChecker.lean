import IcebergCxx.Failure
import IcebergCxx.TableMetadata

/-!
# Checkers of table metadata

`DefaultChecker` and `JavaCompatibleChecker` of `table_metadata.cpp`. A condition that fails is fatal or makes the
result false, and is printed or not; what is printed is left out.
-/

namespace IcebergCxx

/-- `MetadataChecker`, without `cerr_errors_`. -/
structure MetadataChecker where
  fatalOnError : Bool

namespace MetadataChecker

/-- `result &= Ensure(condition, message)`. -/
def andEnsure (checker : MetadataChecker) (result condition : Bool) (message : String) : Except Failure Bool :=
  if condition then .ok result
  else if checker.fatalOnError then .error (.thrown message)
  else .ok false

end MetadataChecker

namespace DefaultChecker

def check (checker : MetadataChecker) (metadata : TableMetadataV2) : Except Failure Bool := do
  let result ← checker.andEnsure true (!metadata.tableUuid.isEmpty)
    "Invalid TableMetadataV2 argument: table_uuid is empty"
  let result ← checker.andEnsure result (!metadata.location.isEmpty)
    "Invalid TableMetadataV2 argument: location is empty"
  let result ← checker.andEnsure result (!metadata.sortOrders.isEmpty)
    "Invalid TableMetadataV2 argument: sort_orders is empty"
  let result ← metadata.snapshots.foldlM (fun result snapshot =>
    checker.andEnsure result (snapshot.sequenceNumber ≤ metadata.lastSequenceNumber)
      "Invalid TableMetadataV2 argument: snapshot sequence number is greater than last sequence number") result
  let snapshotsIds := metadata.snapshots.map Snapshot.snapshotId
  let result ← metadata.snapshotLog.foldlM (fun result entry =>
    checker.andEnsure result (snapshotsIds.contains entry.snapshotId)
      "Invalid TableMetadataV2 argument: snapshot_log contains snapshot_id that is not present in snapshots") result
  let result ← metadata.refs.values.foldlM (fun result ref =>
    checker.andEnsure result (snapshotsIds.contains ref.snapshotId)
      "Invalid TableMetadataV2 argument: snapshot-ref id is not found in snapshots' ids") result
  let result ← checker.andEnsure result (metadata.currentSnapshotId.all snapshotsIds.contains)
    "Invalid TableMetadataV2 argument: current snapshot id is not found in snapshots' ids"
  let result ← checker.andEnsure result
    (metadata.schemas.any (fun schema => schema.schemaId = metadata.currentSchemaId.toInt))
    "Invalid TableMetadataV2 argument: current schema id is not found in schemas' ids"
  checker.andEnsure result (metadata.partitionSpecs.any (fun spec => spec.specId = metadata.defaultSpecId.toInt))
    "Invalid TableMetadataV2 argument: default spec id is not found in partition specs' ids"

end DefaultChecker

namespace JavaCompatibleChecker

def kMillisInMinute : Int := 60 * 1000

/-- `timestamp_ms + kMillisInMinute`: the sum of an `int64_t` must not overflow. -/
def addMinute (timestampMs : Int64) : Except Failure Int :=
  if timestampMs.toInt + kMillisInMinute < 2 ^ 63 then .ok (timestampMs.toInt + kMillisInMinute) else .error .undefined

/-- The loop over a log, which compares every entry with the next one. -/
def checkSorted (checker : MetadataChecker) (message : String) : List Int64 → Bool → Except Failure Bool
  | timestampMs :: next :: log, result => do
    let limit ← addMinute next
    let result ← checker.andEnsure result (timestampMs.toInt ≤ limit) message
    checkSorted checker message (next :: log) result
  | _, result => .ok result

/-- The last entry of a log against `last_updated_ms`. -/
def checkLast (checker : MetadataChecker) (message : String) (lastUpdatedMs : Int64) (log : List Int64)
    (result : Bool) : Except Failure Bool :=
  match log.getLast? with
  | none => checker.andEnsure result true message
  | some timestampMs => do
    let limit ← addMinute lastUpdatedMs
    checker.andEnsure result (timestampMs.toInt ≤ limit) message

/-- `Check`. What the default checker returns is not used. -/
def check (checker : MetadataChecker) (metadata : TableMetadataV2) : Except Failure Bool := do
  let _ ← DefaultChecker.check checker metadata
  let snapshotLog := metadata.snapshotLog.map SnapshotLog.timestampMs
  let metadataLog := metadata.metadataLog.map MetadataLog.timestampMs
  let result ← checkSorted checker "Invalid TableMetadataV2 argument: snapshot log is not sorted by timestamp"
    snapshotLog true
  let result ← checkLast checker
    "Invalid TableMetadataV2 argument: last updated ms is less than the last snapshot timestamp"
    metadata.lastUpdatedMs snapshotLog result
  let result ← checkSorted checker "Invalid TableMetadataV2 argument: metadata log is not sorted by timestamp"
    metadataLog result
  checkLast checker "Invalid TableMetadataV2 argument: last updated ms is less than the last metadata timestamp"
    metadata.lastUpdatedMs metadataLog result

end JavaCompatibleChecker

end IcebergCxx
