import IcebergCxx.Failure
import IcebergCxx.TableScan

/-!
# Manifests of specs with void transforms

A field with a void transform has no type. Reading and writing of manifests once more, with what happens where the type
is asked for its id told apart from an exception.
-/

namespace IcebergCxx.NullType

open Lib

/-- One field of `MakeSchemaPartition`. -/
def partitionFieldNode (field : PartitionKeyField) : Except Failure (Bytes × IceAvro.Node) :=
  match field.type with
  | none => .error .undefined
  | some type => do
    let node ← throwing (partitionNode type)
    return (field.name, .optional node)

def makeSchemaPartition (partitionSpec : List PartitionKeyField) : Except Failure IceAvro.Node := do
  let fields ← partitionSpec.mapM partitionFieldNode
  return .record (bytes "r102") fields

/-- `MakeSchemaManifestEntry`: nothing else of it depends on the partition spec. -/
def makeSchemaManifestEntry (partitionSpec : List PartitionKeyField) (cfg : ManifestEntryDeserializerConfig) :
    Except Failure IceAvro.Node := do
  let _partition ← makeSchemaPartition partitionSpec
  throwing (IcebergCxx.makeSchemaManifestEntry partitionSpec cfg)

def manifestReaderSchema (avro : AvroLibrary) (input : avro.File) (partitionSpec : List PartitionKeyField)
    (config : ManifestEntryDeserializerConfig) (useReaderSchema : Bool) : Except Failure AvroSchema :=
  if useReaderSchema then do
    let node ← makeSchemaManifestEntry partitionSpec config
    throwing (avroSchemaFromNode avro node)
  else .ok (avro.dataSchema input)

/-- `ReadManifestEntries`. -/
def readManifestEntries (avro : AvroLibrary) (json : JsonLibrary) (getInt : Option Json → Except String Int)
    (input : avro.File) (partitionSpec : List PartitionKeyField) (config : ManifestEntryDeserializerConfig)
    (useReaderSchema : Bool) : Except Failure Manifest := do
  let schema ← manifestReaderSchema avro input partitionSpec config useReaderSchema
  throwing (do
    validatePartitionSpec partitionSpec (avro.dataSchema input)
    let metadata ← fillSchemaId json getInt
      (((avro.metadata input).erase (bytes "avro.schema")).erase (bytes "avro.codec"))
    let data ← avro.readFile input schema
    let entries ← data.mapM (deserializeManifestEntry config)
    return { metadata := metadata, entries := entries })

/-- `ManifestEntryStream`. -/
def manifestEntryStream (request : ScanRequest) (input : request.avro.File) (partitionSpec : List PartitionKeyField)
    (config : ManifestEntryDeserializerConfig) (useReaderSchema : Bool) : Except Failure (List AvroDatum) := do
  let schema ← manifestReaderSchema request.avro input partitionSpec config useReaderSchema
  throwing (do
    validatePartitionSpec partitionSpec (request.avro.dataSchema input)
    request.avro.readFile input schema)

/-- `WriteManifestEntries`. -/
def writeManifestEntries (avro : AvroLibrary) (manifest : Manifest) (partitionSpec : List PartitionKeyField) :
    Except Failure avro.File := do
  let node ← makeSchemaManifestEntry partitionSpec {}
  throwing (do
    let schema ← avroSchemaFromNode avro node
    let data ← manifest.entries.mapM (fun entry => serializeManifestEntry partitionSpec entry (defaultDatum schema))
    return avro.writeFile schema manifest.metadata data)

end IcebergCxx.NullType
