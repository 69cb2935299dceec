import IcebergCxx.JsonParse
import IcebergCxx.ManifestEntry
import IcebergCxx.Lib.StringStream

/-!
# Table metadata

`table_metadata.cpp`: the metadata of a table, its builder with the checks every metadata passes,
and its JSON form. Columns have no default values here. The JSON implementation is a parameter;
`WriteTableMetadataV2` chooses between two of its writers, and both are an implementation of the
same format.
-/

namespace IcebergCxx

open Lib JsonParse

structure Snapshot where
  snapshotId : Int64
  parentSnapshotId : Option Int64
  sequenceNumber : Int64
  timestampMs : Int64
  manifestListLocation : Bytes
  summary : OrdMap Bytes Bytes
  schemaId : Option Int64
  deriving DecidableEq

structure SnapshotRef where
  snapshotId : Int64
  type : Bytes
  minSnapshotsToKeep : Option Int32
  maxSnapshotAgeMs : Option Int64
  maxRefAgeMs : Option Int64
  deriving DecidableEq

structure SnapshotLog where
  timestampMs : Int64
  snapshotId : Int64
  deriving DecidableEq

structure BlobMetadata where
  type : Bytes
  snapshotId : Int64
  sequenceNumber : Int64
  fieldIds : List Int32
  properties : OrdMap Bytes Bytes
  deriving DecidableEq

structure Statistics where
  snapshotId : Int64
  statisticsPath : Bytes
  fileSizeInBytes : Int64
  fileFooterSizeInBytes : Int64
  keyMetadata : Option Bytes
  blobMetadata : List BlobMetadata
  deriving DecidableEq

structure MetadataLog where
  timestampMs : Int64
  metadataFile : Bytes
  deriving DecidableEq

inductive NullOrder
  | nullsFirst | nullsLast
  deriving DecidableEq

inductive SortDirection
  | asc | desc
  deriving DecidableEq

structure SortField where
  transform : Bytes
  sourceId : Int32
  direction : SortDirection
  nullOrder : NullOrder
  deriving DecidableEq

structure SortOrder where
  orderId : Int32
  fields : List SortField
  deriving DecidableEq

structure TableMetadataV2 where
  tableUuid : Bytes
  location : Bytes
  lastSequenceNumber : Int64
  lastUpdatedMs : Int64
  lastColumnId : Int32
  schemas : List Schema
  currentSchemaId : Int32
  partitionSpecs : List PartitionSpec
  defaultSpecId : Int32
  lastPartitionId : Int32
  properties : OrdMap Bytes Bytes
  currentSnapshotId : Option Int64
  snapshots : List Snapshot
  snapshotLog : List SnapshotLog
  metadataLog : List MetadataLog
  sortOrders : List SortOrder
  defaultSortOrderId : Int32
  refs : OrdMap Bytes SnapshotRef
  statistics : List Statistics
  deriving DecidableEq

/-! ### Building -/

/-- `DefaultChecker::Check`, which throws at the first condition that fails. -/
def defaultCheck (metadata : TableMetadataV2) : Except String Unit := do
  ensure (!metadata.tableUuid.isEmpty) "Invalid TableMetadataV2 argument: table_uuid is empty"
  ensure (!metadata.location.isEmpty) "Invalid TableMetadataV2 argument: location is empty"
  ensure (!metadata.sortOrders.isEmpty) "Invalid TableMetadataV2 argument: sort_orders is empty"
  metadata.snapshots.forM (fun snapshot =>
    ensure (snapshot.sequenceNumber ≤ metadata.lastSequenceNumber)
      "Invalid TableMetadataV2 argument: snapshot sequence number is greater than last sequence number")
  let snapshotsIds := metadata.snapshots.map Snapshot.snapshotId
  metadata.snapshotLog.forM (fun entry =>
    ensure (snapshotsIds.contains entry.snapshotId)
      "Invalid TableMetadataV2 argument: snapshot_log contains snapshot_id that is not present in snapshots")
  metadata.refs.values.forM (fun ref =>
    ensure (snapshotsIds.contains ref.snapshotId)
      "Invalid TableMetadataV2 argument: snapshot-ref id is not found in snapshots' ids")
  ensure (metadata.currentSnapshotId.all snapshotsIds.contains)
    "Invalid TableMetadataV2 argument: current snapshot id is not found in snapshots' ids"
  ensure (metadata.schemas.any (fun schema => schema.schemaId = metadata.currentSchemaId.toInt))
    "Invalid TableMetadataV2 argument: current schema id is not found in schemas' ids"
  ensure (metadata.partitionSpecs.any (fun spec => spec.specId = metadata.defaultSpecId.toInt))
    "Invalid TableMetadataV2 argument: default spec id is not found in partition specs' ids"

/-- `TableMetadataV2Builder`. -/
structure TableMetadataV2Builder where
  tableUuid : Option Bytes := none
  location : Option Bytes := none
  lastSequenceNumber : Option Int64 := none
  lastUpdatedMs : Option Int64 := none
  lastColumnId : Option Int32 := none
  schemas : Option (List Schema) := none
  currentSchemaId : Option Int32 := none
  partitionSpecs : Option (List PartitionSpec) := none
  defaultSpecId : Option Int32 := none
  lastPartitionId : Option Int32 := none
  properties : Option (OrdMap Bytes Bytes) := none
  currentSnapshotId : Option Int64 := none
  snapshots : Option (List Snapshot) := none
  snapshotLog : Option (List SnapshotLog) := none
  metadataLog : Option (List MetadataLog) := none
  sortOrders : Option (List SortOrder) := none
  defaultSortOrderId : Option Int32 := none
  refs : Option (OrdMap Bytes SnapshotRef) := none
  statistics : Option (List Statistics) := none

namespace TableMetadataV2Builder

/-- `ASSERT_HAS_VALUE`. -/
def assertHasValue {α : Type} (field : String) : Option α → Except String α
  | some value => .ok value
  | none => .error ("TableMetadataV2Builder::Build(): !" ++ field ++ ".has_value()")

/-- `ASSERT_GE(field, 0)`. -/
def assertGe (field : String) (value : Int) : Except String Unit :=
  ensure (0 ≤ value) ("TableMetadataV2Builder::Build(): !" ++ field ++ " condition")

/-- The sign checks of `Build`, on the fields of the metadata it makes. -/
def assertSigns (metadata : TableMetadataV2) : Except String Unit := do
  assertGe "last_sequence_number" metadata.lastSequenceNumber.toInt
  assertGe "last_column_id" metadata.lastColumnId.toInt
  assertGe "current_schema_id" metadata.currentSchemaId.toInt
  assertGe "default_spec_id" metadata.defaultSpecId.toInt
  assertGe "last_partition_id" metadata.lastPartitionId.toInt
  assertGe "default_sort_order_id" metadata.defaultSortOrderId.toInt

/-- The constructor of `TableMetadataV2` takes -1 for no current snapshot. -/
def normalizeSnapshotId (id : Option Int64) : Option Int64 := if id = some (-1) then none else id

def build (builder : TableMetadataV2Builder) : Except String TableMetadataV2 := do
  let tableUuid ← assertHasValue "table_uuid" builder.tableUuid
  let location ← assertHasValue "location" builder.location
  let lastSequenceNumber ← assertHasValue "last_sequence_number" builder.lastSequenceNumber
  let lastUpdatedMs ← assertHasValue "last_updated_ms" builder.lastUpdatedMs
  let lastColumnId ← assertHasValue "last_column_id" builder.lastColumnId
  let schemas ← assertHasValue "schemas" builder.schemas
  let currentSchemaId ← assertHasValue "current_schema_id" builder.currentSchemaId
  let partitionSpecs ← assertHasValue "partition_specs" builder.partitionSpecs
  let defaultSpecId ← assertHasValue "default_spec_id" builder.defaultSpecId
  let lastPartitionId ← assertHasValue "last_partition_id" builder.lastPartitionId
  let sortOrders ← assertHasValue "sort_orders" builder.sortOrders
  let defaultSortOrderId ← assertHasValue "default_sort_order_id" builder.defaultSortOrderId
  let metadata : TableMetadataV2 :=
    { tableUuid := tableUuid
      location := location
      lastSequenceNumber := lastSequenceNumber
      lastUpdatedMs := lastUpdatedMs
      lastColumnId := lastColumnId
      schemas := schemas
      currentSchemaId := currentSchemaId
      partitionSpecs := partitionSpecs
      defaultSpecId := defaultSpecId
      lastPartitionId := lastPartitionId
      properties := builder.properties.getD ∅
      currentSnapshotId := normalizeSnapshotId builder.currentSnapshotId
      snapshots := builder.snapshots.getD []
      snapshotLog := builder.snapshotLog.getD []
      metadataLog := builder.metadataLog.getD []
      sortOrders := sortOrders
      defaultSortOrderId := defaultSortOrderId
      refs := builder.refs.getD ∅
      statistics := builder.statistics.getD [] }
  assertSigns metadata
  defaultCheck metadata
  return metadata

end TableMetadataV2Builder

/-! ### Writing -/

namespace Names

def formatVersion : Bytes := bytes "format-version"
def tableUuid : Bytes := bytes "table-uuid"
def location : Bytes := bytes "location"
def lastSequenceNumber : Bytes := bytes "last-sequence-number"
def lastUpdatedMs : Bytes := bytes "last-updated-ms"
def lastColumnId : Bytes := bytes "last-column-id"
def currentSchemaId : Bytes := bytes "current-schema-id"
def schemas : Bytes := bytes "schemas"
def partitionSpecs : Bytes := bytes "partition-specs"
def defaultSpecId : Bytes := bytes "default-spec-id"
def lastPartitionId : Bytes := bytes "last-partition-id"
def properties : Bytes := bytes "properties"
def currentSnapshotId : Bytes := bytes "current-snapshot-id"
def snapshots : Bytes := bytes "snapshots"
def snapshotLog : Bytes := bytes "snapshot-log"
def metadataLog : Bytes := bytes "metadata-log"
def sortOrders : Bytes := bytes "sort-orders"
def defaultSortOrderId : Bytes := bytes "default-sort-order-id"
def refs : Bytes := bytes "refs"
def fields : Bytes := bytes "fields"
def type : Bytes := bytes "type"
def list : Bytes := bytes "list"
def elementId : Bytes := bytes "element-id"
def elementRequired : Bytes := bytes "element-required"
def element : Bytes := bytes "element"
def struct : Bytes := bytes "struct"
def schemaId : Bytes := bytes "schema-id"
def id : Bytes := bytes "id"
def name : Bytes := bytes "name"
def required : Bytes := bytes "required"
def sourceId : Bytes := bytes "source-id"
def fieldId : Bytes := bytes "field-id"
def transform : Bytes := bytes "transform"
def specId : Bytes := bytes "spec-id"
def snapshotId : Bytes := bytes "snapshot-id"
def parentSnapshotId : Bytes := bytes "parent-snapshot-id"
def sequenceNumber : Bytes := bytes "sequence-number"
def timestampMs : Bytes := bytes "timestamp-ms"
def operation : Bytes := bytes "operation"
def summary : Bytes := bytes "summary"
def manifestList : Bytes := bytes "manifest-list"
def metadataFile : Bytes := bytes "metadata-file"
def orderId : Bytes := bytes "order-id"
def direction : Bytes := bytes "direction"
def nullOrder : Bytes := bytes "null-order"
def asc : Bytes := bytes "asc"
def desc : Bytes := bytes "desc"
def nullsFirst : Bytes := bytes "nulls-first"
def nullsLast : Bytes := bytes "nulls-last"
def minSnapshotsToKeep : Bytes := bytes "min-snapshots-to-keep"
def maxSnapshotAgeMs : Bytes := bytes "max-snapshot-age-ms"
def maxRefAgeMs : Bytes := bytes "max-ref-age-ms"
def statistics : Bytes := bytes "statistics"
def statisticsPath : Bytes := bytes "statistics-path"
def fileSizeInBytes : Bytes := bytes "file-size-in-bytes"
def fileFooterSizeInBytes : Bytes := bytes "file-footer-size-in-bytes"
def blobMetadata : Bytes := bytes "blob-metadata"

end Names

/-- `WriteDataType`: the value of the member it adds. -/
def writeDataType : IceType → Json
  | .list elementId elementRequired elementType =>
    .object
      [(Names.type, .string Names.list),
       (Names.elementId, .int elementId),
       (Names.elementRequired, .bool elementRequired),
       (Names.element, writeDataType elementType)]
  | type => .string type.toText

def writeField (field : NestedField) : Json :=
  .object
    [(Names.id, .int field.fieldId),
     (Names.name, .string field.name),
     (Names.required, .bool field.isRequired),
     (Names.type, writeDataType field.type)]

/-- One element of `WriteSchemas`. -/
def writeSchema (schema : Schema) : Json :=
  .object
    [(Names.type, .string Names.struct),
     (Names.schemaId, .int schema.schemaId),
     (Names.fields, .array (schema.columns.map writeField))]

def writePartitionField (field : PartitionField) : Json :=
  .object
    [(Names.sourceId, .int field.sourceId),
     (Names.fieldId, .int field.fieldId),
     (Names.name, .string field.name),
     (Names.transform, .string field.transform)]

/-- One element of `WritePartitionSpec`. -/
def writePartitionSpec (spec : PartitionSpec) : Json :=
  .object
    [(Names.specId, .int spec.specId),
     (Names.fields, .array (spec.fields.map writePartitionField))]

/-- `WriteStringMap` into a new object. -/
def writeStringMap (values : OrdMap Bytes Bytes) : Json :=
  .object (values.entries.map (fun p => (p.1, .string p.2)))

def snapshotFields (snap : Snapshot) : List (Bytes × Option Json) :=
  [(Names.sequenceNumber, some (.int snap.sequenceNumber.toInt)),
   (Names.snapshotId, some (.int snap.snapshotId.toInt)),
   (Names.parentSnapshotId, snap.parentSnapshotId.map (fun id => .int id.toInt)),
   (Names.timestampMs, some (.int snap.timestampMs.toInt)),
   (Names.summary, some (writeStringMap snap.summary)),
   (Names.manifestList, some (.string snap.manifestListLocation)),
   (Names.schemaId, snap.schemaId.map (fun id => .int id.toInt))]

def writeSnapshot (snap : Snapshot) : Except String Json := do
  ensure (snap.summary.contains Names.operation) "WriteSnapshot: no operation in summary"
  return .object (membersOf (snapshotFields snap))

/-- `WriteSnapshots`, `WriteSnapshotLog` and `WriteMetadataLog` leave out an empty list. -/
def writeNonEmpty : List Json → Option Json
  | [] => none
  | elements => some (.array elements)

/-- `WriteProperties`. -/
def writeProperties (values : OrdMap Bytes Bytes) : Option Json :=
  if values.entries.isEmpty then none else some (writeStringMap values)

def blobFields (blob : BlobMetadata) : List (Bytes × Option Json) :=
  [(Names.properties, writeProperties blob.properties),
   (Names.sequenceNumber, some (.int blob.sequenceNumber.toInt)),
   (Names.snapshotId, some (.int blob.snapshotId.toInt)),
   (Names.type, some (.string blob.type)),
   (Names.fields, some (.array (blob.fieldIds.map (fun id => .int id.toInt))))]

def writeBlobMetadata (blob : BlobMetadata) : Json := .object (membersOf (blobFields blob))

def writeStatistic (stat : Statistics) : Json :=
  .object
    [(Names.statisticsPath, .string stat.statisticsPath),
     (Names.snapshotId, .int stat.snapshotId.toInt),
     (Names.fileSizeInBytes, .int stat.fileSizeInBytes.toInt),
     (Names.fileFooterSizeInBytes, .int stat.fileFooterSizeInBytes.toInt),
     (Names.blobMetadata, .array (stat.blobMetadata.map writeBlobMetadata))]

def writeSnapshotLogEntry (entry : SnapshotLog) : Json :=
  .object
    [(Names.timestampMs, .int entry.timestampMs.toInt),
     (Names.snapshotId, .int entry.snapshotId.toInt)]

def writeMetadataLogEntry (entry : MetadataLog) : Json :=
  .object
    [(Names.timestampMs, .int entry.timestampMs.toInt),
     (Names.metadataFile, .string entry.metadataFile)]

def writeSortField (field : SortField) : Json :=
  .object
    [(Names.transform, .string field.transform),
     (Names.sourceId, .int field.sourceId.toInt),
     (Names.direction, .string (if field.direction = .asc then Names.asc else Names.desc)),
     (Names.nullOrder, .string (if field.nullOrder = .nullsFirst then Names.nullsFirst else Names.nullsLast))]

/-- One element of `WriteSortOrder`. -/
def writeSortOrder (order : SortOrder) : Json :=
  .object
    [(Names.orderId, .int order.orderId.toInt),
     (Names.fields, .array (order.fields.map writeSortField))]

def refFields (ref : SnapshotRef) : List (Bytes × Option Json) :=
  [(Names.snapshotId, some (.int ref.snapshotId.toInt)),
   (Names.type, some (.string ref.type)),
   (Names.minSnapshotsToKeep, ref.minSnapshotsToKeep.map (fun n => .int n.toInt)),
   (Names.maxSnapshotAgeMs, ref.maxSnapshotAgeMs.map (fun n => .int n.toInt)),
   (Names.maxRefAgeMs, ref.maxRefAgeMs.map (fun n => .int n.toInt))]

/-- `WriteRefField`. -/
def writeRef (ref : SnapshotRef) : Json := .object (membersOf (refFields ref))

def writeRefs (values : OrdMap Bytes SnapshotRef) : Option Json :=
  if values.entries.isEmpty then none
  else some (.object (values.entries.map (fun p => (p.1, writeRef p.2))))

/-- The fields of the document, in the order in which they are added. -/
def metadataFields (metadata : TableMetadataV2) (snapshots : List Json) : List (Bytes × Option Json) :=
  [(Names.formatVersion, some (.int 2)),
   (Names.tableUuid, some (.string metadata.tableUuid)),
   (Names.location, some (.string metadata.location)),
   (Names.lastSequenceNumber, some (.int metadata.lastSequenceNumber.toInt)),
   (Names.lastUpdatedMs, some (.int metadata.lastUpdatedMs.toInt)),
   (Names.lastColumnId, some (.int metadata.lastColumnId.toInt)),
   (Names.currentSchemaId, some (.int metadata.currentSchemaId.toInt)),
   (Names.schemas, some (.array (metadata.schemas.map writeSchema))),
   (Names.defaultSpecId, some (.int metadata.defaultSpecId.toInt)),
   (Names.partitionSpecs, some (.array (metadata.partitionSpecs.map writePartitionSpec))),
   (Names.lastPartitionId, some (.int metadata.lastPartitionId.toInt)),
   (Names.defaultSortOrderId, some (.int metadata.defaultSortOrderId.toInt)),
   (Names.sortOrders, some (.array (metadata.sortOrders.map writeSortOrder))),
   (Names.properties, writeProperties metadata.properties),
   (Names.statistics, some (.array (metadata.statistics.map writeStatistic))),
   (Names.currentSnapshotId, metadata.currentSnapshotId.map (fun id => .int id.toInt)),
   (Names.refs, writeRefs metadata.refs),
   (Names.snapshots, writeNonEmpty snapshots),
   (Names.snapshotLog, writeNonEmpty (metadata.snapshotLog.map writeSnapshotLogEntry)),
   (Names.metadataLog, writeNonEmpty (metadata.metadataLog.map writeMetadataLogEntry))]

/-- `WriteTableMetadataV2`: the text up to its first zero byte. -/
def writeTableMetadataV2 (lib : JsonLibrary) (metadata : TableMetadataV2) : Except String Bytes := do
  let snapshots ← metadata.snapshots.mapM writeSnapshot
  return cString (lib.print (.object (membersOf (metadataFields metadata snapshots))))

/-! ### Reading -/

/-- `kStringToPrimitiveTypeId`. -/
def primitiveTypes : List (Bytes × IceType) :=
  [(bytes "boolean", .boolean), (bytes "int", .int), (bytes "long", .long), (bytes "float", .float),
   (bytes "double", .double), (bytes "date", .date), (bytes "time", .time), (bytes "timestamp", .timestamp),
   (bytes "timestamptz", .timestamptz), (bytes "timestamp_ns", .timestampNs),
   (bytes "timestamptz_ns", .timestamptzNs), (bytes "string", .string), (bytes "uuid", .uuid),
   (bytes "binary", .binary)]

def nameToPrimitiveType (name : Bytes) : Option IceType :=
  (primitiveTypes.find? (fun entry => entry.1 = name)).map Prod.snd

/-- The constructor of `DecimalType`. -/
def makeDecimalType (precision scale : Int) : Except String IceType :=
  if 0 < precision ∧ precision ≤ 38 then .ok (.decimal precision scale)
  else .error ("DecimalType: precision = " ++ toString precision)

/-- The constructor of `FixedType`. -/
def makeFixedType (size : Int) : Except String IceType :=
  if 0 < size then .ok (.fixed size) else .error ("FixedType: size = " ++ toString size)

/-- The branch of `JsonToDataType` for a text. -/
def textToDataType (str : Bytes) : Except String IceType :=
  match nameToPrimitiveType str with
  | some type => .ok type
  | none =>
    if (bytes "decimal").isPrefixOf str then
      let ss := StringStream.ignore { rest := str } (bytes "decimal(").length
      let (precision, ss) := ss.extractInt32 (some (-1))
      let (scale, _) := (ss.ignore 1).extractInt32 (some (-1))
      makeDecimalType (precision.getD (-1)) (scale.getD (-1))
    else if (bytes "fixed").isPrefixOf str then
      let ss := StringStream.ignore { rest := str } (bytes "fixed[").length
      match (ss.extractInt32 none).1 with
      | some size => makeFixedType size
      | none => .error "JsonToDataType: the size is not initialized"
    else .error ("JsonToDataType: unknown type '" ++ text str ++ "'")

mutual

def jsonToDataType : Json → Except String IceType
  | .string s => textToDataType (cString s)
  | .object value => do
    ensure (Json.findMember Names.type value).isSome "JsonToDataType: !value.HasMember(\"type\""
    let type ← extractStringField value Names.type
    if type = Names.list then
      let elementFieldId ← extractInt32Field value Names.elementId
      let elementRequired ← extractBooleanField value Names.elementRequired
      let elementType ← jsonToElementType value
      return .list elementFieldId.toInt elementRequired elementType
    else .error "JsonToDataType: unknown type"
  | _ => .error "JsonToDataType: unknown type"

/-- The type of `value["element"]`. -/
def jsonToElementType : List (Bytes × Json) → Except String IceType
  | [] => .error "JsonToDataType: !value.HasMember(\"element\""
  | (name, element) :: value => if name = Names.element then jsonToDataType element else jsonToElementType value

end

def jsonToField (document : Json) : Except String NestedField := do
  let document ← assertObject document
  let fieldId ← extractInt32Field document Names.id
  let name ← extractStringField document Names.name
  let isRequired ← extractBooleanField document Names.required
  match Json.findMember Names.type document with
  | none => .error "JsonToField: document.HasMember(\"type\")"
  | some value =>
    let type ← jsonToDataType value
    return { name := name, fieldId := fieldId.toInt, isRequired := isRequired, type := type }

def extractSchemaFields : List (Bytes × Json) → Bytes → Except String (List NestedField) :=
  extractArray "ExtractSchemaFields" jsonToField

def jsonToSchema (document : Json) : Except String Schema := do
  let document ← ensureObject "JsonToSchema" document
  let schemaId ← extractInt32Field document Names.schemaId
  let fields ← extractSchemaFields document Names.fields
  return { schemaId := schemaId.toInt, columns := fields }

def extractSchemas (document : List (Bytes × Json)) : Except String (List Schema) :=
  extractArray "ExtractSchemas" jsonToSchema document Names.schemas

def jsonToPartitionField (document : Json) : Except String PartitionField := do
  let document ← assertObject document
  let sourceId ← extractInt32Field document Names.sourceId
  let fieldId ← extractInt32Field document Names.fieldId
  let name ← extractStringField document Names.name
  let transform ← extractStringField document Names.transform
  return { sourceId := sourceId.toInt, fieldId := fieldId.toInt, name := name, transform := transform }

def extractPartitionFields (document : List (Bytes × Json)) : Except String (List PartitionField) :=
  extractArray "ExtractPartitionFields" jsonToPartitionField document Names.fields

def jsonPartitionSpec (document : Json) : Except String PartitionSpec := do
  let document ← ensureObject "JsonPartitionSpec" document
  let specId ← extractInt32Field document Names.specId
  let fields ← extractPartitionFields document
  return { specId := specId.toInt, fields := fields }

def extractPartitionSpecs (document : List (Bytes × Json)) : Except String (List PartitionSpec) :=
  extractArray "ExtractPartitionSpecs" jsonPartitionSpec document Names.partitionSpecs

def jsonToSnapshot (document : Json) : Except String Snapshot := do
  let document ← ensureObject "JsonToSnapshot" document
  let snapshotId ← extractInt64Field document Names.snapshotId
  let parentSnapshotId := extractOptionalInt64Field document Names.parentSnapshotId
  let sequenceNumber ← extractInt64Field document Names.sequenceNumber
  let timestampMs ← extractInt64Field document Names.timestampMs
  let manifestList ← extractStringField document Names.manifestList
  let summary ← extractStringMap document Names.summary
  ensure (summary.contains Names.operation) "JsonToSnapshot: !summary.contains(\"operation\")"
  let schemaId := extractOptionalInt64Field document Names.schemaId
  return {
    snapshotId := snapshotId
    parentSnapshotId := parentSnapshotId
    sequenceNumber := sequenceNumber
    timestampMs := timestampMs
    manifestListLocation := manifestList
    summary := summary
    schemaId := schemaId }

def jsonToFieldId (document : Json) : Except String Int32 :=
  match deserializeInt32 document with
  | .ok id => .ok id
  | .error _ => .error "JsonToFieldId: !document.IsInt()"

def extractFieldIds (document : List (Bytes × Json)) : Except String (List Int32) :=
  extractArray "ExtractFieldIds" jsonToFieldId document Names.fields

def jsonToBlobMetadata (document : Json) : Except String BlobMetadata := do
  let document ← assertObject document
  let type ← extractStringField document Names.type
  let snapshotId ← extractInt64Field document Names.snapshotId
  let sequenceNumber ← extractInt64Field document Names.sequenceNumber
  let fieldIds ← extractFieldIds document
  let properties ← extractStringMap document Names.properties
  return {
    type := type
    snapshotId := snapshotId
    sequenceNumber := sequenceNumber
    fieldIds := fieldIds
    properties := properties }

def extractBlobMetadata (document : List (Bytes × Json)) : Except String (List BlobMetadata) :=
  extractArray "ExtractBlobMetadata" jsonToBlobMetadata document Names.blobMetadata

/-- The key metadata is not read. -/
def jsonToStatistics (document : Json) : Except String Statistics := do
  let document ← ensureObject "JsonToStatistics" document
  let statisticsPath ← extractStringField document Names.statisticsPath
  let snapshotId ← extractInt64Field document Names.snapshotId
  let fileSizeInBytes ← extractInt64Field document Names.fileSizeInBytes
  let fileFooterSizeInBytes ← extractInt64Field document Names.fileFooterSizeInBytes
  let blobMetadata ← extractBlobMetadata document
  return {
    snapshotId := snapshotId
    statisticsPath := statisticsPath
    fileSizeInBytes := fileSizeInBytes
    fileFooterSizeInBytes := fileFooterSizeInBytes
    keyMetadata := none
    blobMetadata := blobMetadata }

def extractSnapshots (document : List (Bytes × Json)) : Except String (Option (List Snapshot)) :=
  extractIfPresent (processArray jsonToSnapshot) document Names.snapshots

def jsonToSnapshotLogEntry (document : Json) : Except String SnapshotLog := do
  let document ← ensureObject "JsonToSnapshotLogEntry" document
  let timestampMs ← extractInt64Field document Names.timestampMs
  let snapshotId ← extractInt64Field document Names.snapshotId
  return { timestampMs := timestampMs, snapshotId := snapshotId }

def extractSnapshotLog (document : List (Bytes × Json)) : Except String (Option (List SnapshotLog)) :=
  extractIfPresent (processArray jsonToSnapshotLogEntry) document Names.snapshotLog

def jsonToMetadataLogEntry (document : Json) : Except String MetadataLog := do
  let document ← ensureObject "JsonToMetadataLogEntry" document
  let timestampMs ← extractInt64Field document Names.timestampMs
  let metadataFile ← extractStringField document Names.metadataFile
  return { timestampMs := timestampMs, metadataFile := metadataFile }

def extractMetadataLog (document : List (Bytes × Json)) : Except String (Option (List MetadataLog)) :=
  extractIfPresent (processArray jsonToMetadataLogEntry) document Names.metadataLog

def extractProperties (document : List (Bytes × Json)) : Except String (Option (OrdMap Bytes Bytes)) :=
  extractIfPresent jsonToStringMap document Names.properties

def jsonToSortField (document : Json) : Except String SortField := do
  let document ← ensureObject "JsonToSortField" document
  let strDirection ← extractStringField document Names.direction
  let strNullOrder ← extractStringField document Names.nullOrder
  let transform ← extractStringField document Names.transform
  let sourceId ← extractInt32Field document Names.sourceId
  return {
    transform := transform
    sourceId := sourceId
    direction := if strDirection = Names.asc ∨ strDirection = bytes "ASC" then .asc else .desc
    nullOrder := if strNullOrder = Names.nullsFirst then .nullsFirst else .nullsLast }

/-- The fields of an order are looked up without a check. -/
def jsonToSortOrders (document : Json) : Except String SortOrder := do
  let document ← ensureObject "JsonToSortOrders" document
  let orderId ← extractInt32Field document Names.orderId
  let fields ← extractArray "RAPIDJSON_ASSERT" jsonToSortField document Names.fields
  return { orderId := orderId, fields := fields }

def extractSortOrders (document : List (Bytes × Json)) : Except String (List SortOrder) :=
  extractArray "ExtractSortOrders" jsonToSortOrders document Names.sortOrders

def jsonToRef (document : Json) : Except String SnapshotRef := do
  let document ← ensureObject "JsonToRef" document
  let snapshotId ← extractInt64Field document Names.snapshotId
  let type ← extractStringField document Names.type
  return {
    snapshotId := snapshotId
    type := type
    minSnapshotsToKeep := extractOptionalInt32Field document Names.minSnapshotsToKeep
    maxSnapshotAgeMs := extractOptionalInt64Field document Names.maxSnapshotAgeMs
    maxRefAgeMs := extractOptionalInt64Field document Names.maxRefAgeMs }

def jsonToRefsMap : Json → Except String (OrdMap Bytes SnapshotRef) := jsonToMap "JsonToRefsMap" jsonToRef

def extractRefs (document : List (Bytes × Json)) : Except String (Option (OrdMap Bytes SnapshotRef)) :=
  extractIfPresent jsonToRefsMap document Names.refs

def extractStatistics (document : List (Bytes × Json)) : Except String (Option (List Statistics)) :=
  extractIfPresent (processArray jsonToStatistics) document Names.statistics

def makeTableMetadataV2 (document : List (Bytes × Json)) : Except String TableMetadataV2 := do
  let tableUuid ← extractStringField document Names.tableUuid
  let location ← extractStringField document Names.location
  let lastSequenceNumber ← extractInt64Field document Names.lastSequenceNumber
  let lastUpdatedMs ← extractInt64Field document Names.lastUpdatedMs
  let lastColumnId ← extractInt32Field document Names.lastColumnId
  let schemas ← extractSchemas document
  let currentSchemaId ← extractInt32Field document Names.currentSchemaId
  let partitionSpecs ← extractPartitionSpecs document
  let defaultSpecId ← extractInt32Field document Names.defaultSpecId
  let lastPartitionId ← extractInt32Field document Names.lastPartitionId
  let properties ← extractProperties document
  let currentSnapshotId := extractOptionalInt64Field document Names.currentSnapshotId
  let snapshots ← extractSnapshots document
  let snapshotLog ← extractSnapshotLog document
  let metadataLog ← extractMetadataLog document
  let sortOrders ← extractSortOrders document
  let defaultSortOrderId ← extractInt32Field document Names.defaultSortOrderId
  let refs ← extractRefs document
  let statistics ← extractStatistics document
  let builder : TableMetadataV2Builder :=
    { tableUuid := some tableUuid
      location := some location
      lastSequenceNumber := some lastSequenceNumber
      lastUpdatedMs := some lastUpdatedMs
      lastColumnId := some lastColumnId
      schemas := some schemas
      currentSchemaId := some currentSchemaId
      partitionSpecs := some partitionSpecs
      defaultSpecId := some defaultSpecId
      lastPartitionId := some lastPartitionId
      properties := properties
      currentSnapshotId := currentSnapshotId
      snapshots := snapshots
      snapshotLog := snapshotLog
      metadataLog := metadataLog
      sortOrders := some sortOrders
      defaultSortOrderId := some defaultSortOrderId
      refs := refs
      statistics := statistics }
  builder.build

/-- `ReadTableMetadataV2`: a null pointer when the text is not an object. -/
def readTableMetadataV2 (lib : JsonLibrary) (json : Bytes) : Except String (Option TableMetadataV2) :=
  match lib.parse json with
  | some (.object document) => do
    let metadata ← makeTableMetadataV2 document
    return some metadata
  | _ => .ok none

end IcebergCxx
