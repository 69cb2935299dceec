import IcebergCxx.Basic

/-!
# Iceberg types, manifest entries and partition specifications

The records the planner reads: `types::Type` with `ToString`, `ContentFile` with its
partition tuple, `ManifestEntry`, and the parts of the table metadata that decide to which
partition an entry belongs.
-/

namespace IcebergCxx

open Lib

/-- `types::Type`: the primitive types with a name, and the parametrised ones. -/
inductive IceType
  | boolean | int | long | float | double | date | time
  | timestamp | timestamptz | timestampNs | timestamptzNs
  | string | uuid | binary
  | decimal (precision scale : Int)
  | fixed (size : Int)
  | list (elementId : Int) (elementRequired : Bool) (elementType : IceType)
  deriving DecidableEq

/-- `Type::ToString`. -/
def IceType.toText : IceType → Bytes
  | .boolean => bytes "boolean"
  | .int => bytes "int"
  | .long => bytes "long"
  | .float => bytes "float"
  | .double => bytes "double"
  | .date => bytes "date"
  | .time => bytes "time"
  | .timestamp => bytes "timestamp"
  | .timestamptz => bytes "timestamptz"
  | .timestampNs => bytes "timestamp_ns"
  | .timestamptzNs => bytes "timestamptz_ns"
  | .string => bytes "string"
  | .uuid => bytes "uuid"
  | .binary => bytes "binary"
  | .decimal precision scale =>
    bytes "decimal(" ++ toDecimalInt precision ++ bytes ", " ++ toDecimalInt scale ++ bytes ")"
  | .fixed size => bytes "fixed(" ++ toDecimalInt size ++ bytes ")"
  | .list _ _ elementType => bytes "list(" ++ elementType.toText ++ bytes ")"

/-- `PartitionKey::AvroValueHolder`. Floating-point values are kept as their bit patterns. -/
inductive AvroValue
  | null
  | bool (value : Bool)
  | int (value : BitVec 32)
  | long (value : BitVec 64)
  | float (bits : BitVec 32)
  | double (bits : BitVec 64)
  | string (value : Bytes)
  | bytes (value : Bytes)
  | fixed (value : Bytes)
  deriving DecidableEq

/-- `ContentFile::PartitionKey`; a null value carries no type. -/
structure PartitionKey where
  name : Bytes
  value : AvroValue
  type : Option IceType
  deriving DecidableEq

/-- `ContentFile::PartitionTuple`. -/
structure PartitionTuple where
  fields : List PartitionKey
  deriving DecidableEq

inductive FileContent
  | data | positionDeletes | equalityDeletes
  deriving DecidableEq

/-- `ContentFile`, without the key metadata. -/
structure ContentFile where
  content : FileContent := .data
  filePath : Bytes := []
  fileFormat : Bytes := []
  partitionTuple : PartitionTuple := ⟨[]⟩
  recordCount : Int := 0
  fileSizeInBytes : Int := 0
  columnSizes : OrdMap Int Int := ∅
  valueCounts : OrdMap Int Int := ∅
  nullValueCounts : OrdMap Int Int := ∅
  nanValueCounts : OrdMap Int Int := ∅
  distinctCounts : OrdMap Int Int := ∅
  lowerBounds : OrdMap Int Bytes := ∅
  upperBounds : OrdMap Int Bytes := ∅
  splitOffsets : List Int := []
  equalityIds : List Int := []
  sortOrderId : Option Int := none
  referencedDataFile : Option Bytes := none
  contentOffset : Option Int := none
  contentSizeInBytes : Option Int := none
  deriving DecidableEq

inductive EntryStatus
  | existing | added | deleted
  deriving DecidableEq

structure ManifestEntry where
  status : EntryStatus := .existing
  snapshotId : Option Int := none
  sequenceNumber : Option Int := none
  fileSequenceNumber : Option Int := none
  dataFile : ContentFile := {}
  deriving DecidableEq

/-- `kDeletionVectorFormat`. -/
def deletionVectorFormat : Bytes := bytes "PUFFIN"

structure PartitionField where
  sourceId : Int
  fieldId : Int
  name : Bytes
  transform : Bytes
  deriving DecidableEq

structure PartitionSpec where
  specId : Int
  fields : List PartitionField
  deriving DecidableEq

/-- The parts of `types::NestedField` that planning reads. -/
structure NestedField where
  name : Bytes
  fieldId : Int
  isRequired : Bool := false
  type : IceType
  deriving DecidableEq

structure Schema where
  schemaId : Int
  columns : List NestedField
  deriving DecidableEq

/-- The parts of `TableMetadataV2` the planner reads: the current schema, the partition
specifications and the manifest list of the current snapshot, if there is one. -/
structure TableMetadata where
  currentSchema : Schema
  partitionSpecs : List PartitionSpec
  currentManifestListPath : Option Bytes := none
  deriving DecidableEq

/-- `PartitionKeyField`; a void transform has no type. -/
structure PartitionKeyField where
  name : Bytes
  type : Option IceType
  deriving DecidableEq

/-- `Transforms::GetTypeFromSourceType`. -/
def getTypeFromSourceType (sourceId : Int) (schema : Schema) : Option IceType :=
  (schema.columns.find? (fun column => column.fieldId = sourceId)).map (fun column =>
    if column.type = .timestamptz then .timestamp else column.type)

/-- The field `GetFieldsFromPartitionSpec` makes of one partition field, if its transform is known. -/
def partitionKeyField (schema : Schema) (value : PartitionField) : Option PartitionKeyField :=
  if (bytes "bucket").isPrefixOf value.transform || value.transform = bytes "year" ||
      value.transform = bytes "month" || value.transform = bytes "hour" then
    some ⟨value.name, some .int⟩
  else if value.transform = bytes "day" then
    some ⟨value.name, some .date⟩
  else if value.transform = bytes "identity" || (bytes "truncate").isPrefixOf value.transform then
    (getTypeFromSourceType value.sourceId schema).map (fun type => ⟨value.name, some type⟩)
  else if value.transform = bytes "void" then
    some ⟨value.name, none⟩
  else none

/-- `GetFieldsFromPartitionSpec`. -/
def getFieldsFromPartitionSpec (spec : PartitionSpec) (schema : Schema) :
    Option (List PartitionKeyField) :=
  spec.fields.mapM (partitionKeyField schema)

/-- The check `MatchesSpecification` makes of one actual field with the expected name. -/
def fieldMatches (expected : PartitionKeyField) (actual : PartitionKey) : Bool :=
  (match actual.type, expected.type with
    | some actualType, some expectedType => actualType.toText = expectedType.toText
    | _, _ => true) &&
  (expected.type.isSome || actual.value = .null)

/-- `MatchesSpecification`. -/
def matchesSpecification (spec : PartitionSpec) (schema : Schema) (tuple : PartitionTuple) : Bool :=
  match getFieldsFromPartitionSpec spec schema with
  | none => false
  | some partitionFields =>
    partitionFields.length = tuple.fields.length &&
    partitionFields.all (fun expected =>
      match tuple.fields.filter (fun actual => actual.name = expected.name) with
      | [actual] => fieldMatches expected actual
      | _ => false)

/-- `ScanMetadataBuilder::CheckPartitionTupleIsCorrect`. -/
def checkPartitionTupleIsCorrect (tableMetadata : TableMetadata) (entry : ManifestEntry) :
    Except String Unit :=
  let matching := (tableMetadata.partitionSpecs.filter (fun spec =>
    matchesSpecification spec tableMetadata.currentSchema entry.dataFile.partitionTuple)).length
  if matching = 0 then
    .error ("Partiton specification for entry " ++ text entry.dataFile.filePath ++ " is not found")
  else if matching > 1 then
    .error ("Multiple (" ++ toString matching ++ ") partiton specifications for entry " ++
      text entry.dataFile.filePath ++ " are found")
  else .ok ()

end IcebergCxx
