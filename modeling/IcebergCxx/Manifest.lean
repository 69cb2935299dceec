import IcebergCxx.IceAvro
import IcebergCxx.TableMetadata

/-!
# Manifests

`manifest_entry.cpp`: manifest entries are written to an Avro file whose schema depends on the
partition fields, and read back through the schema that a configuration asks for. Data are generic:
a member of a record is set and read by its name. Key metadata is neither written nor read. The
Avro library and the JSON parser of the `schema` entry of the file's metadata are parameters.
-/

namespace IcebergCxx

open Lib IceAvro

structure DataFileDeserializerConfig where
  extractContent : Bool := true
  extractFilePath : Bool := true
  extractFileFormat : Bool := true
  extractPartitionTuple : Bool := true
  extractRecordCount : Bool := true
  extractFileSizeInBytes : Bool := true
  extractColumnSizes : Bool := true
  extractValueCounts : Bool := true
  extractNullValueCounts : Bool := true
  extractNanValueCounts : Bool := true
  extractDistinctCounts : Bool := true
  extractLowerBounds : Bool := true
  extractUpperBounds : Bool := true
  extractSplitOffsets : Bool := true
  extractEqualityIds : Bool := true
  extractSortOrderId : Bool := true
  extractReferencedDataFile : Bool := true
  extractContentOffset : Bool := true
  extractContentSizeInBytes : Bool := true
  deriving DecidableEq

structure ManifestEntryDeserializerConfig where
  extractStatus : Bool := true
  extractSnapshotId : Bool := true
  extractSequenceNumber : Bool := true
  extractFileSequenceNumber : Bool := true
  datafileConfig : DataFileDeserializerConfig := {}
  deriving DecidableEq

structure Manifest where
  metadata : OrdMap Bytes Bytes
  entries : List ManifestEntry

/-! ### Schemas -/

/-- The node of a partition value in `MakeSchemaPartition`. -/
def partitionNode : IceType → Except String IceAvro.Node
  | .boolean => .ok .bool
  | .int => .ok .int
  | .long => .ok .long
  | .date => .ok .date
  | .time => .ok .time
  | .timestamp => .ok .timestamp
  | .timestamptz => .ok .timestamptz
  | .timestampNs => .ok .timestampNs
  | .timestamptzNs => .ok .timestamptzNs
  | .decimal precision scale => .ok (.decimal precision scale)
  | .fixed size => .ok (.fixed size)
  | .uuid => .ok .uuid
  | .string => .ok .string
  | .binary => .ok .bytes
  | .float => .ok .float
  | .double => .ok .double
  | .list _ _ _ => .error "Unexpected data iceberg::TypeID in partitioning"

/-- One field of `MakeSchemaPartition`, which reads the type without a check. -/
def partitionFieldNode (field : PartitionKeyField) : Except String (Bytes × IceAvro.Node) :=
  match field.type with
  | none => .error "MakeSchemaPartition: null pointer"
  | some type => do
    let node ← partitionNode type
    return (field.name, .optional node)

def makeSchemaPartition (partitionSpec : List PartitionKeyField) : Except String IceAvro.Node := do
  let fields ← partitionSpec.mapM partitionFieldNode
  return .record (bytes "r102") fields

/-- A map is an array of records with a key and a value. -/
def mapField (extract : Bool) (name entry : String) (value : IceAvro.Node) : List (Bytes × IceAvro.Node) :=
  if extract then
    [(bytes name, .optional (.array (.record (bytes entry) [(bytes "key", .int), (bytes "value", value)])))]
  else []

def makeSchemaDataFile (partitionSpec : List PartitionKeyField) (cfg : ManifestEntryDeserializerConfig) :
    Except String IceAvro.Node := do
  let partition ← makeSchemaPartition partitionSpec
  let config := cfg.datafileConfig
  return .record (bytes "r2")
    ([(bytes "content", IceAvro.Node.int),
      (bytes "file_path", .string),
      (bytes "file_format", .string),
      (bytes "record_count", .long),
      (bytes "file_size_in_bytes", .long),
      (bytes "equality_ids", .optional (.array .int)),
      (bytes "referenced_data_file", .optional .string),
      (bytes "content_offset", .optional .long),
      (bytes "content_size_in_bytes", .optional .long)] ++
     mapField config.extractColumnSizes "column_sizes" "k117_v118" .long ++
     mapField config.extractValueCounts "value_counts" "k119_v120" .long ++
     mapField config.extractNullValueCounts "null_value_counts" "k121_v122" .long ++
     mapField config.extractLowerBounds "lower_bounds" "k126_v127" .bytes ++
     mapField config.extractUpperBounds "upper_bounds" "k129_v130" .bytes ++
     mapField config.extractNanValueCounts "nan_value_counts" "k138_v139" .long ++
     mapField config.extractDistinctCounts "distinct_counts" "k123_v124" .long ++
     [(bytes "split_offsets", .optional (.array .long)),
      (bytes "sort_order_id", .optional .int),
      (bytes "partition", partition)])

def makeSchemaManifestEntry (partitionSpec : List PartitionKeyField) (cfg : ManifestEntryDeserializerConfig) :
    Except String IceAvro.Node := do
  let dataFile ← makeSchemaDataFile partitionSpec cfg
  return .record (bytes "manifest_entry")
    [(bytes "status", .int),
     (bytes "snapshot_id", .optional .long),
     (bytes "sequence_number", .optional .long),
     (bytes "file_sequence_number", .optional .long),
     (bytes "data_file", dataFile)]

/-- The text of the declaration is printed and parsed between the two libraries. -/
def avroSchemaFromNode (avro : AvroLibrary) (node : IceAvro.Node) : Except String AvroSchema := do
  let json ← toJson node
  avro.compileJsonSchema json

/-! ### Reading data -/

namespace ReadDatum

def int (datum : AvroDatum) : Except String Int :=
  match datum.content with
  | .int _ value => .ok value
  | _ => .error "Deserialize: unexpected datum type"

def long (datum : AvroDatum) : Except String Int :=
  match datum.content with
  | .long _ value => .ok value
  | _ => .error "Deserialize: unexpected datum type"

def string (datum : AvroDatum) : Except String Bytes :=
  match datum.content with
  | .string value => .ok value
  | _ => .error "Deserialize: unexpected datum type"

/-- Anything else is no bytes. -/
def binary (datum : AvroDatum) : Except String Bytes :=
  match datum.content with
  | .bytes value => .ok value
  | _ => .ok []

/-- Anything else, such as null, is no element. -/
def vector {α : Type} (f : AvroDatum → Except String α) (datum : AvroDatum) : Except String (List α) :=
  match datum.content with
  | .array _ elements => elements.mapM f
  | _ => .ok []

def optional {α : Type} (f : AvroDatum → Except String α) (datum : AvroDatum) : Except String (Option α) :=
  match datum.content with
  | .null => .ok none
  | _ => do
    let value ← f datum
    return some value

/-- `Extract` of a field that must be there. -/
def extractField {α : Type} (f : AvroDatum → Except String α) (record : List (Bytes × AvroDatum)) (name : String) :
    Except String α :=
  match findDatum (bytes name) record with
  | some field => f field
  | none => .error ("Extract: field '" ++ name ++ "' is missing")

/-- `Extract` of a container: a missing field is an empty one. -/
def extractOr {α : Type} (empty : α) (f : AvroDatum → Except String α) (record : List (Bytes × AvroDatum))
    (name : String) : Except String α :=
  match findDatum (bytes name) record with
  | some field => f field
  | none => .ok empty

def pair {α : Type} (value : List (Bytes × AvroDatum) → Except String α) (datum : AvroDatum) :
    Except String (Int × α) :=
  match datum.content with
  | .record record => do
    let first ← extractField int record "key"
    let second ← value record
    return (first, second)
  | _ => .error "Deserialize: unexpected datum type"

def map {α : Type} (value : List (Bytes × AvroDatum) → Except String α) (datum : AvroDatum) :
    Except String (OrdMap Int α) := do
  let vec ← vector (pair value) datum
  return vec.foldl (fun result p => result.emplace p.1 p.2) ∅

def mapIntLong : AvroDatum → Except String (OrdMap Int Int) := map (fun record => extractField long record "value")

def mapIntBytes : AvroDatum → Except String (OrdMap Int Bytes) :=
  map (fun record => extractOr [] binary record "value")

/-- One field of the partition record. -/
def partitionKey (name : Bytes) (field : AvroDatum) : Except String PartitionKey :=
  match field.content with
  | .null => .ok ⟨name, .null, none⟩
  | .int logicalType value =>
    match logicalType with
    | .none => .ok ⟨name, .int (BitVec.ofInt 32 value), some .int⟩
    | .date => .ok ⟨name, .int (BitVec.ofInt 32 value), some .date⟩
    | _ => .error "Unexpected logical type in avro for int"
  | .long logicalType value =>
    match logicalType with
    | .none => .ok ⟨name, .long (BitVec.ofInt 64 value), some .long⟩
    | .timestampMicros => .ok ⟨name, .long (BitVec.ofInt 64 value), some .timestamp⟩
    | .timestampNanos => .ok ⟨name, .long (BitVec.ofInt 64 value), some .timestampNs⟩
    | .timeMicros => .ok ⟨name, .long (BitVec.ofInt 64 value), some .time⟩
    | _ => .error "Unexpected logical type in avro for long"
  | .fixed logicalType value =>
    match logicalType with
    | .decimal precision scale => do
      let type ← makeDecimalType precision scale
      return ⟨name, .fixed value, some type⟩
    | .uuid => .ok ⟨name, .fixed value, some .uuid⟩
    | _ => do
      let type ← makeFixedType value.length
      return ⟨name, .fixed value, some type⟩
  | .string value => .ok ⟨name, .string value, some .string⟩
  | .boolean value => .ok ⟨name, .bool value, some .boolean⟩
  | .bytes value => .ok ⟨name, .bytes value, some .binary⟩
  | .float bits => .ok ⟨name, .float bits, some .float⟩
  | .double bits => .ok ⟨name, .double bits, some .double⟩
  | _ => .error "Deserialize: unexpected avro type"

/-- The partition tuple, sorted by name; no two fields of a record share a name. -/
def partitionTuple (datum : AvroDatum) : Except String PartitionTuple :=
  match datum.content with
  | .record record => do
    let fields ← record.mapM (fun field => partitionKey field.1 field.2)
    return ⟨fields.insertionSort (fun lhs rhs => lhs.name ≤ rhs.name)⟩
  | _ => .error "Deserialize: unexpected datum type"

/-- `static_cast` to `FileContent`; no other number is modelled. -/
def fileContent : Int → Except String FileContent
  | 0 => .ok .data
  | 1 => .ok .positionDeletes
  | 2 => .ok .equalityDeletes
  | _ => .error "no such content"

/-- `static_cast` to `Status`. -/
def status : Int → Except String EntryStatus
  | 0 => .ok .existing
  | 1 => .ok .added
  | 2 => .ok .deleted
  | _ => .error "no such status"

/-- `ExtractIf`. -/
def extractIf {α : Type} (cond : Bool) (value : α) (get : Except String α) : Except String α :=
  if cond then get else .ok value

end ReadDatum

open ReadDatum in
/-- `DataFileDeserializer::Deserialize`. -/
def deserializeDataFile (config : DataFileDeserializerConfig) (datum : AvroDatum) : Except String ContentFile :=
  match datum.content with
  | .record record => do
    let filePath ← extractIf config.extractFilePath [] (extractField string record "file_path")
    let content ← extractIf config.extractContent .data (extractField int record "content" >>= fileContent)
    let fileFormat ← extractIf config.extractFileFormat [] (extractField string record "file_format")
    let recordCount ← extractIf config.extractRecordCount 0 (extractField long record "record_count")
    let fileSizeInBytes ← extractIf config.extractFileSizeInBytes 0 (extractField long record "file_size_in_bytes")
    let sortOrderId ← extractIf config.extractSortOrderId none (extractOr none (optional int) record "sort_order_id")
    let referencedDataFile ← extractIf config.extractReferencedDataFile none
      (extractOr none (optional string) record "referenced_data_file")
    let contentOffset ← extractIf config.extractContentOffset none
      (extractOr none (optional long) record "content_offset")
    let contentSizeInBytes ← extractIf config.extractContentSizeInBytes none
      (extractOr none (optional long) record "content_size_in_bytes")
    let columnSizes ← extractIf config.extractColumnSizes ∅ (extractOr ∅ mapIntLong record "column_sizes")
    let valueCounts ← extractIf config.extractValueCounts ∅ (extractOr ∅ mapIntLong record "value_counts")
    let splitOffsets ← extractIf config.extractSplitOffsets [] (extractOr [] (vector long) record "split_offsets")
    let nullValueCounts ← extractIf config.extractNullValueCounts ∅ (extractOr ∅ mapIntLong record "null_value_counts")
    let lowerBounds ← extractIf config.extractLowerBounds ∅ (extractOr ∅ mapIntBytes record "lower_bounds")
    let upperBounds ← extractIf config.extractUpperBounds ∅ (extractOr ∅ mapIntBytes record "upper_bounds")
    let partition ← extractIf config.extractPartitionTuple ⟨[]⟩ (extractField partitionTuple record "partition")
    let nanValueCounts ← extractIf config.extractNanValueCounts ∅ (extractOr ∅ mapIntLong record "nan_value_counts")
    let distinctCounts ← extractIf config.extractDistinctCounts ∅ (extractOr ∅ mapIntLong record "distinct_counts")
    let equalityIds ← extractIf config.extractEqualityIds [] (extractOr [] (vector int) record "equality_ids")
    return {
      content := content
      filePath := filePath
      fileFormat := fileFormat
      partitionTuple := partition
      recordCount := recordCount
      fileSizeInBytes := fileSizeInBytes
      columnSizes := columnSizes
      valueCounts := valueCounts
      nullValueCounts := nullValueCounts
      nanValueCounts := nanValueCounts
      distinctCounts := distinctCounts
      lowerBounds := lowerBounds
      upperBounds := upperBounds
      splitOffsets := splitOffsets
      equalityIds := equalityIds
      sortOrderId := sortOrderId
      referencedDataFile := referencedDataFile
      contentOffset := contentOffset
      contentSizeInBytes := contentSizeInBytes }
  | _ => .error "Deserialize: data.type() is not record"

open ReadDatum in
/-- `ManifestEntryDeserializer::Deserialize`. -/
def deserializeManifestEntry (config : ManifestEntryDeserializerConfig) (datum : AvroDatum) :
    Except String ManifestEntry :=
  match datum.content with
  | .record record => do
    let dataFile ← (match findDatum (bytes "data_file") record with
      | some field => deserializeDataFile config.datafileConfig field
      | none => .ok {})
    let status ← extractIf config.extractStatus .existing (extractField int record "status" >>= status)
    let snapshotId ← extractIf config.extractSnapshotId none (extractOr none (optional long) record "snapshot_id")
    let sequenceNumber ← extractIf config.extractSequenceNumber none
      (extractOr none (optional long) record "sequence_number")
    let fileSequenceNumber ← extractIf config.extractFileSequenceNumber none
      (extractOr none (optional long) record "file_sequence_number")
    return {
      status := status
      snapshotId := snapshotId
      sequenceNumber := sequenceNumber
      fileSequenceNumber := fileSequenceNumber
      dataFile := dataFile }
  | _ => .error "Deserialize: datum.type() is not record"

/-! ### Writing data -/

namespace WriteDatum

def setBool (value : Bool) : AvroDatum → Except String AvroDatum
  | .boolean _ => .ok (.boolean value)
  | _ => .error "bad any cast"

def setInt (value : Int) : AvroDatum → Except String AvroDatum
  | .int logical _ => .ok (.int logical value)
  | _ => .error "bad any cast"

def setLong (value : Int) : AvroDatum → Except String AvroDatum
  | .long logical _ => .ok (.long logical value)
  | _ => .error "bad any cast"

def setFloat (value : BitVec 32) : AvroDatum → Except String AvroDatum
  | .float _ => .ok (.float value)
  | _ => .error "bad any cast"

def setDouble (value : BitVec 64) : AvroDatum → Except String AvroDatum
  | .double _ => .ok (.double value)
  | _ => .error "bad any cast"

def setFixed (value : Bytes) : AvroDatum → Except String AvroDatum
  | .fixed logical _ => .ok (.fixed logical value)
  | _ => .error "bad any cast"

def setString (value : Bytes) : AvroDatum → Except String AvroDatum
  | .string _ => .ok (.string value)
  | _ => .error "bad any cast"

def setBytes (value : Bytes) : AvroDatum → Except String AvroDatum
  | .bytes _ => .ok (.bytes value)
  | _ => .error "bad any cast"

/-- Appends to an array elements made from the schema of its items. -/
def setArray {α : Type} (element : AvroSchema → α → Except String AvroDatum) (values : List α) :
    AvroDatum → Except String AvroDatum
  | .array items elements => do
    let added ← values.mapM (element items)
    return .array items (elements ++ added)
  | _ => .error "bad any cast"

/-- The second branch of the union with the value, or the first. -/
def setOptional {α : Type} (set : α → AvroDatum → Except String AvroDatum) (value : Option α)
    (result : AvroDatum) : Except String AvroDatum :=
  match value with
  | some value => do
    let result ← result.selectBranch 1
    result.modifyContent (set value)
  | none => result.selectBranch 0

def serializeOptionalBool : Option Bool → AvroDatum → Except String AvroDatum := setOptional setBool

def serializeOptionalInt : Option Int → AvroDatum → Except String AvroDatum := setOptional setInt

def serializeOptionalLong : Option Int → AvroDatum → Except String AvroDatum := setOptional setLong

def serializeOptionalFloat : Option (BitVec 32) → AvroDatum → Except String AvroDatum := setOptional setFloat

def serializeOptionalDouble : Option (BitVec 64) → AvroDatum → Except String AvroDatum := setOptional setDouble

def serializeOptionalFixed : Option Bytes → AvroDatum → Except String AvroDatum := setOptional setFixed

def serializeOptionalString : Option Bytes → AvroDatum → Except String AvroDatum := setOptional setString

def serializeOptionalBytes : Option Bytes → AvroDatum → Except String AvroDatum := setOptional setBytes

/-- `SerializeOptionalVector...` and `SerializeOptionalMap...`: an empty container is null. -/
def serializeOptionalArray {α : Type} (element : AvroSchema → α → Except String AvroDatum) (values : List α)
    (result : AvroDatum) : Except String AvroDatum :=
  if values.isEmpty then result.selectBranch 0
  else do
    let result ← result.selectBranch 1
    result.modifyContent (setArray element values)

def serializeOptionalVectorInt : List Int → AvroDatum → Except String AvroDatum :=
  serializeOptionalArray (fun _ value => .ok (.int .none value))

def serializeOptionalVectorLong : List Int → AvroDatum → Except String AvroDatum :=
  serializeOptionalArray (fun _ value => .ok (.long .none value))

/-- A record with the members `key` and `value`. -/
def mapEntry {α : Type} (value : α → AvroDatum) (elementSchema : AvroSchema) (entry : Int × α) :
    Except String AvroDatum :=
  match defaultDatum elementSchema with
  | .record record => do
    let record ← modifyDatum (bytes "key") (fun _ => .ok (.int .none entry.1)) record
    let record ← modifyDatum (bytes "value") (fun _ => .ok (value entry.2)) record
    return .record record
  | _ => .error "bad any cast"

def serializeOptionalMapIntLong (map : OrdMap Int Int) : AvroDatum → Except String AvroDatum :=
  serializeOptionalArray (mapEntry (.long .none)) map.entries

def serializeOptionalMapIntBytes (map : OrdMap Int Bytes) : AvroDatum → Except String AvroDatum :=
  serializeOptionalArray (mapEntry .bytes) map.entries

/-- `std::get` of one alternative of a value that is not null. -/
def getBool : AvroValue → Except String (Option Bool)
  | .null => .ok none
  | .bool value => .ok (some value)
  | _ => .error "bad_variant_access"

def getInt : AvroValue → Except String (Option Int)
  | .null => .ok none
  | .int value => .ok (some value.toInt)
  | _ => .error "bad_variant_access"

def getLong : AvroValue → Except String (Option Int)
  | .null => .ok none
  | .long value => .ok (some value.toInt)
  | _ => .error "bad_variant_access"

def getFloat : AvroValue → Except String (Option (BitVec 32))
  | .null => .ok none
  | .float bits => .ok (some bits)
  | _ => .error "bad_variant_access"

def getDouble : AvroValue → Except String (Option (BitVec 64))
  | .null => .ok none
  | .double bits => .ok (some bits)
  | _ => .error "bad_variant_access"

def getString : AvroValue → Except String (Option Bytes)
  | .null => .ok none
  | .string value => .ok (some value)
  | _ => .error "bad_variant_access"

def getBytes : AvroValue → Except String (Option Bytes)
  | .null => .ok none
  | .bytes value => .ok (some value)
  | _ => .error "bad_variant_access"

def getFixed : AvroValue → Except String (Option Bytes)
  | .null => .ok none
  | .fixed value => .ok (some value)
  | _ => .error "bad_variant_access"

/-- The branch of `SerializePartition` for a type. -/
def serializePartitionValue (type : IceType) (value : AvroValue) (member : AvroDatum) : Except String AvroDatum :=
  match type with
  | .boolean => do serializeOptionalBool (← getBool value) member
  | .int | .date => do serializeOptionalInt (← getInt value) member
  | .float => do serializeOptionalFloat (← getFloat value) member
  | .double => do serializeOptionalDouble (← getDouble value) member
  | .binary => do serializeOptionalBytes (← getBytes value) member
  | .string => do serializeOptionalString (← getString value) member
  | .long | .time | .timestamp | .timestamptz | .timestampNs | .timestamptzNs => do
    serializeOptionalLong (← getLong value) member
  | .decimal _ _ | .fixed _ | .uuid => do serializeOptionalFixed (← getFixed value) member
  | .list _ _ _ => .error "SerializePartition: internal error. Field has unexpected type"

end WriteDatum

/-- `ExtractTypeFromPartitionSpec`: null also when the field has no type. -/
def extractTypeFromPartitionSpec (partitionSpec : List PartitionKeyField) (name : Bytes) : Option IceType :=
  (partitionSpec.find? (fun elem => elem.name = name)).bind PartitionKeyField.type

/-- One step of `SerializePartition`; a field the record does not have is passed over. -/
def serializePartitionField (partitionSpec : List PartitionKeyField) (record : List (Bytes × AvroDatum))
    (info : PartitionKey) : Except String (List (Bytes × AvroDatum)) :=
  match findDatum info.name record with
  | none => .ok record
  | some _ =>
    match extractTypeFromPartitionSpec partitionSpec info.name with
    | none => .error ("SerializePartition: internal error. Field '" ++ text info.name ++ "' not found in partition_spec")
    | some type => modifyDatum info.name (WriteDatum.serializePartitionValue type info.value) record

def serializePartition (partitionSpec : List PartitionKeyField) (partition : PartitionTuple) (result : AvroDatum) :
    Except String AvroDatum :=
  match result with
  | .record record => do
    let record ← partition.fields.foldlM (serializePartitionField partitionSpec) record
    return .record record
  | _ => .error "bad any cast"

/-- The number of an enumerator. -/
def contentNumber : FileContent → Int
  | .data => 0
  | .positionDeletes => 1
  | .equalityDeletes => 2

def statusNumber : EntryStatus → Int
  | .existing => 0
  | .added => 1
  | .deleted => 2

/-- The members that a function sets, in the order in which it does. -/
def setMembers (setters : List (Bytes × (AvroDatum → Except String AvroDatum))) (result : AvroDatum) :
    Except String AvroDatum :=
  match result with
  | .record record => do
    let record ← setters.foldlM (fun record setter => modifyDatum setter.1 setter.2 record) record
    return .record record
  | _ => .error "bad any cast"

open WriteDatum in
def serializeDataFile (partitionSpec : List PartitionKeyField) (dataFile : ContentFile) :
    AvroDatum → Except String AvroDatum :=
  setMembers
    [(bytes "record_count", fun _ => .ok (.long .none dataFile.recordCount)),
     (bytes "file_size_in_bytes", fun _ => .ok (.long .none dataFile.fileSizeInBytes)),
     (bytes "split_offsets", serializeOptionalVectorLong dataFile.splitOffsets),
     (bytes "equality_ids", serializeOptionalVectorInt dataFile.equalityIds),
     (bytes "file_format", fun _ => .ok (.string dataFile.fileFormat)),
     (bytes "file_path", fun _ => .ok (.string dataFile.filePath)),
     (bytes "content", fun _ => .ok (.int .none (contentNumber dataFile.content))),
     (bytes "referenced_data_file", serializeOptionalString dataFile.referencedDataFile),
     (bytes "content_offset", serializeOptionalLong dataFile.contentOffset),
     (bytes "content_size_in_bytes", serializeOptionalLong dataFile.contentSizeInBytes),
     (bytes "sort_order_id", serializeOptionalInt dataFile.sortOrderId),
     (bytes "column_sizes", serializeOptionalMapIntLong dataFile.columnSizes),
     (bytes "value_counts", serializeOptionalMapIntLong dataFile.valueCounts),
     (bytes "null_value_counts", serializeOptionalMapIntLong dataFile.nullValueCounts),
     (bytes "lower_bounds", serializeOptionalMapIntBytes dataFile.lowerBounds),
     (bytes "upper_bounds", serializeOptionalMapIntBytes dataFile.upperBounds),
     (bytes "distinct_counts", serializeOptionalMapIntLong dataFile.distinctCounts),
     (bytes "nan_value_counts", serializeOptionalMapIntLong dataFile.nanValueCounts),
     (bytes "partition", serializePartition partitionSpec dataFile.partitionTuple)]

open WriteDatum in
def serializeManifestEntry (partitionSpec : List PartitionKeyField) (entry : ManifestEntry) :
    AvroDatum → Except String AvroDatum :=
  setMembers
    [(bytes "status", fun _ => .ok (.int .none (statusNumber entry.status))),
     (bytes "snapshot_id", serializeOptionalLong entry.snapshotId),
     (bytes "sequence_number", serializeOptionalLong entry.sequenceNumber),
     (bytes "file_sequence_number", serializeOptionalLong entry.fileSequenceNumber),
     (bytes "data_file", serializeDataFile partitionSpec entry.dataFile)]

/-! ### Files -/

/-- `Find`: a field of a record. -/
def findLeaf (root : AvroSchema) (name : Bytes) : Option AvroSchema :=
  match root with
  | .record _ fields => (fields.find? (fun field => field.1 = name)).map Prod.snd
  | _ => none

def validatePartitionSpec (partitionSpec : List PartitionKeyField) (root : AvroSchema) : Except String Unit :=
  match findLeaf root (bytes "data_file") with
  | none => .error "ValidatePartitionSpec: data_file is not found in avro.schema"
  | some dataFile =>
    match findLeaf dataFile (bytes "partition") with
    | some (.record _ fields) => do
      ensure (partitionSpec.length = fields.length) "ValidatePartitionSpec: partition_spec has another number of fields"
      partitionSpec.forM (fun specField =>
        ensure (specField.name ∈ fields.map Prod.fst)
          ("ValidatePartitionSpec: partition_spec has field '" ++ text specField.name ++
            "', but partition in avro does not"))
    | _ => .error "ValidatePartitionSpec: partition is not found in avro.schema"

/-- The id of the schema is taken from its text when the metadata has none. `GetInt` of a member
that is missing or no integer violates an assertion of the JSON library: `getInt` stops the program
or gives any number, as the library was built. -/
def fillSchemaId (json : JsonLibrary) (getInt : Option Json → Except String Int) (metadata : OrdMap Bytes Bytes) :
    Except String (OrdMap Bytes Bytes) :=
  if metadata.contains (bytes "schema-id") then .ok metadata
  else
    match metadata.find? (bytes "schema") with
    | none => .ok metadata
    | some schema =>
      match json.parse (cString schema) with
      | some (.object document) => do
        let schemaId ← getInt (Json.findMember (bytes "schema-id") document)
        return metadata.insert (bytes "schema-id") (toDecimalInt schemaId)
      | _ => .ok metadata

/-- The schema data are read with: one made for the partition fields, or that of the file. -/
def manifestReaderSchema (avro : AvroLibrary) (input : avro.File) (partitionSpec : List PartitionKeyField)
    (config : ManifestEntryDeserializerConfig) (useReaderSchema : Bool) : Except String AvroSchema :=
  if useReaderSchema then do
    let node ← makeSchemaManifestEntry partitionSpec config
    avroSchemaFromNode avro node
  else .ok (avro.dataSchema input)

def readManifestEntries (avro : AvroLibrary) (json : JsonLibrary) (getInt : Option Json → Except String Int)
    (input : avro.File) (partitionSpec : List PartitionKeyField) (config : ManifestEntryDeserializerConfig)
    (useReaderSchema : Bool) : Except String Manifest := do
  let schema ← manifestReaderSchema avro input partitionSpec config useReaderSchema
  validatePartitionSpec partitionSpec (avro.dataSchema input)
  let metadata ← fillSchemaId json getInt
    (((avro.metadata input).erase (bytes "avro.schema")).erase (bytes "avro.codec"))
  let data ← avro.readFile input schema
  let entries ← data.mapM (deserializeManifestEntry config)
  return { metadata := metadata, entries := entries }

def writeManifestEntries (avro : AvroLibrary) (manifest : Manifest) (partitionSpec : List PartitionKeyField) :
    Except String avro.File := do
  let node ← makeSchemaManifestEntry partitionSpec {}
  let schema ← avroSchemaFromNode avro node
  let data ← manifest.entries.mapM (fun entry => serializeManifestEntry partitionSpec entry (defaultDatum schema))
  return avro.writeFile schema manifest.metadata data

end IcebergCxx
