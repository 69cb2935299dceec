import IcebergCxx.ManifestEntry
import IcebergCxx.Lib.Calendar

/-!
# Writing a table to data files

`parquet/io.cpp`: the rows of an Arrow table are grouped by their partition keys, and every group is
written to a Parquet file of its own. A written row is named by its index in the table. What has no
defined behaviour, or aborts, is an error here, as an exception is. `Scalar::ToString`, the
transforms that hash, the order of an unordered map and the file system are parameters.
-/

namespace IcebergCxx

open Lib

namespace ParquetWrite

/-- Arrow types of partition columns, as far as the transforms tell them apart. -/
inductive ScalarType
  | int32
  | int64
  | date64
  | string
  | other (id : Nat)
  deriving DecidableEq

/-- `arrow::Scalar`: the value of a null scalar is the default one. -/
structure Scalar where
  type : ScalarType
  isValid : Bool
  value : Int ⊕ Bytes
  deriving DecidableEq

/-- `arrow::Table`: its columns, and the lengths of the record batches that `TableBatchReader` cuts
it into. -/
structure Table where
  numRows : Nat
  columns : List (List Scalar)
  batchLengths : List Nat
  columns_length : ∀ column ∈ columns, column.length = numRows
  batchLengths_sum : batchLengths.sum = numRows

/-- Rows from an index on, in batches of the given lengths. -/
def batchesFrom : Nat → List Nat → List (List Nat)
  | _, [] => []
  | start, n :: lengths => List.range' start n :: batchesFrom (start + n) lengths

/-- The batches that `TableBatchReader` returns. -/
def Table.batches (table : Table) : List (List Nat) := batchesFrom 0 table.batchLengths

/-! ### Transforms -/

inductive TransformType
  | identity
  | void
  | bucket
  | truncate
  | year
  | day
  | month
  | hour
  deriving DecidableEq

/-- `TransformParser::GetTransformType`. -/
def getTransformType (transform : Bytes) : Except String TransformType :=
  if bytes "identity" <+: transform then .ok .identity
  else if bytes "void" <+: transform then .ok .void
  else if bytes "bucket" <+: transform then .ok .bucket
  else if bytes "truncate" <+: transform then .ok .truncate
  else if bytes "year" <+: transform then .ok .year
  else if bytes "day" <+: transform then .ok .day
  else if bytes "month" <+: transform then .ok .month
  else if bytes "hour" <+: transform then .ok .hour
  else .error ("Unknown transform type " ++ text transform)

/-- `std::gmtime` on the milliseconds of a `Date64Scalar`; `to_time_t` rounds towards zero. -/
def gmtime (millis : Int) : CivilTime := civilTime (Int.tdiv (wrapInt64 (millis * 1000000)) 1000000000)

def int32Scalar (value : Int) : Scalar := ⟨.int32, true, .inl value⟩

/-- A transform of the calendar reads the value of a `Date64Scalar`. -/
def temporalTransform (part : CivilTime → Int) (src : Scalar) : Except String Scalar :=
  match src.type, src.value with
  | .date64, .inl millis => .ok (int32Scalar (part (gmtime millis)))
  | _, _ => .error "not a Date64Scalar"

/-- `GetTransform` and the `Transform` of its result. The day transform is the one of hours; `hashed`
stands for those of buckets and truncation. -/
def transformScalar (hashed : Bytes → Scalar → Except String Scalar) (name : Bytes) (src : Scalar) :
    Except String Scalar := do
  match ← getTransformType name with
  | .identity => .ok src
  | .void => .ok ⟨.int32, false, .inl 0⟩
  | .bucket => hashed name src
  | .truncate => hashed name src
  | .month => temporalTransform CivilTime.month src
  | .year => temporalTransform CivilTime.year src
  | .hour => temporalTransform CivilTime.hour src
  | .day => temporalTransform CivilTime.hour src

/-! ### Partition keys -/

/-- `PartitionKey::partition_values_`. -/
abbrev PartitionValues := List Scalar

/-- The parts of Arrow and of the environment that writing uses. -/
structure Environment where
  hashed : Bytes → Scalar → Except String Scalar
  scalarToString : Scalar → Bytes
  /-- The order in which an unordered map with these keys is visited. -/
  visit : List (PartitionValues × List Int) → List (PartitionValues × List Int)
  visit_perm : ∀ l, (visit l).Perm l
  canOpen : Bytes → Bool

variable (env : Environment)

/-- One field of the key of a row: `partition_values_[field_id]` is set. -/
def setPartitionValue (table : Table) (row : Nat) (values : List (Option Scalar)) (field : PartitionField) :
    Except String (List (Option Scalar)) := do
  let column ← ((if field.sourceId < 0 then none else table.columns[field.sourceId.toNat]?).elim
    (.error "column out of range") .ok)
  let scalar ← (column[row]?).elim (.error "Incorrect value after transform") .ok
  let value ← transformScalar env.hashed field.transform scalar
  ensure (0 ≤ field.fieldId ∧ field.fieldId < values.length) "partition value out of range"
  return values.set field.fieldId.toNat (some value)

/-- The key of a row; every value of it is used through its pointer later on. -/
def partitionKey (partitionSpec : PartitionSpec) (table : Table) (row : Nat) : Except String PartitionValues := do
  let values ← partitionSpec.fields.foldlM (setPartitionValue env table row)
    (List.replicate partitionSpec.fields.length none)
  values.mapM (fun value => value.elim (.error "null partition value") .ok)

/-- `DeterminePartitions`. -/
def determinePartitions (partitionSpec : PartitionSpec) (table : Table) : Except String (List PartitionValues) :=
  (List.range table.numRows).mapM (partitionKey env partitionSpec table)

/-- `partition_to_row_indices[key].push_back(i)`; new keys are put at the end. -/
def pushRow (groups : List (PartitionValues × List Int)) (key : PartitionValues) (i : Int) :
    List (PartitionValues × List Int) :=
  match groups with
  | [] => [(key, [i])]
  | group :: groups =>
    if group.1 = key then (key, group.2 ++ [i]) :: groups else group :: pushRow groups key i

/-- `partition_to_row_indices`; the row numbers are stored as `int`. -/
def partitionToRowIndices (partitions : List PartitionValues) : List (PartitionValues × List Int) :=
  partitions.zipIdx.foldl (fun groups row => pushRow groups row.1 (wrapInt32 row.2)) []

/-! ### Write tasks -/

/-- `RecordBatch::Slice`, which aborts on an offset behind the end. -/
def slice (batch : List Nat) (offset : Int) (length : Nat) : Except String (List Nat) := do
  ensure (offset ≤ batch.length) "Slice offset greater than array length"
  return (batch.drop offset.toNat).take length

/-- `FilterTable`: the selected batches are collected, and `batches` is returned. -/
def filterTable (table : Table) (rowIndices : List Int) : Except String (List (List Nat)) := do
  let batches : List (List Nat) := []
  let _selectedBatches ← rowIndices.mapM (fun index : Int => do
    ensure (index ≥ 0 ∧ index < table.numRows) ("out of range " ++ toString index ++ " " ++ toString table.numRows)
    match table.batches with
    | [] => return []
    | batch :: _ => slice batch index 1)
  return batches

structure WriteTask where
  taskId : Int
  recordBatches : List (List Nat)
  partitionKey : Option PartitionValues

/-- `PartitionKey::ToPath`. -/
def toPath (key : PartitionValues) : Except String Bytes := do
  let result := key.flatMap (fun elem => env.scalarToString elem ++ bytes "-")
  ensure (!result.isEmpty) "pop_back of an empty string"
  return result.dropLast

/-- `WriteTask::GenerateDataFileName`. -/
def generateDataFileName (writeUuid : Bytes) (task : WriteTask) (extension : Bytes) : Bytes :=
  bytes "00000-" ++ toDecimalInt task.taskId ++ bytes "-" ++ writeUuid ++ bytes "." ++ extension

/-- `WriteTask::GenerateDataFilePath`. -/
def generateDataFilePath (writeUuid : Bytes) (task : WriteTask) (location extension : Bytes) : Except String Bytes :=
  match task.partitionKey with
  | some key => do
    let path ← toPath env key
    return location ++ bytes "/" ++ path ++ bytes "-" ++ generateDataFileName writeUuid task extension
  | none => .ok (location ++ bytes "/" ++ generateDataFileName writeUuid task extension)

/-- A data file that was produced: its path, the key its task carries and the rows in it. -/
structure WrittenFile where
  filePath : Bytes
  partitionKey : Option PartitionValues
  rows : List Nat

/-- `WriteToFiles`. -/
def writeToFiles (location writeUuid : Bytes) (tasks : List WriteTask) : Except String (List WrittenFile) :=
  tasks.mapM (fun task => do
    let outputFilename ← generateDataFilePath env writeUuid task location (bytes "parquet")
    ensure (env.canOpen outputFilename) "can not open file"
    return ⟨outputFilename, task.partitionKey, task.recordBatches.flatten⟩)

/-- The tasks of the groups; `counter` numbers them. -/
def partitionTasks (table : Table) : Int → List (PartitionValues × List Int) → Except String (List WriteTask)
  | _, [] => .ok []
  | counter, group :: groups => do
    let recordBatches ← filterTable table group.2
    let tasks ← partitionTasks table (counter + 1) groups
    return ⟨counter, recordBatches, some group.1⟩ :: tasks

/-- `ArrowTableToDataFiles`. -/
def arrowTableToDataFiles (table : Table) (location writeUuid : Bytes) (counter : Int)
    (partitionSpec : Option PartitionSpec) : Except String (List WrittenFile) :=
  match partitionSpec with
  | some partitionSpec => do
    let partitions ← determinePartitions env partitionSpec table
    let writeTasks ← partitionTasks table counter (env.visit (partitionToRowIndices partitions))
    writeToFiles env location writeUuid writeTasks
  | none => writeToFiles env location writeUuid [⟨counter, table.batches, none⟩]

end ParquetWrite

end IcebergCxx
