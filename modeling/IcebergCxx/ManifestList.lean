import IcebergCxx.Basic
import IcebergCxx.Lib.AvroCodec

/-!
# Manifest lists

`tea_manifest_metadata.cpp`: a list of `ManifestFile` records is written as an Avro file of the
generated record `manifest_file` and read back. The generated unions are options; their codec
follows the declaration `kManifestListSchemaJson`, whose `doc` texts are left out.
-/

namespace IcebergCxx

open Lib

inductive ManifestContent
  | data | deletes
  deriving DecidableEq

/-- A bound that is absent is empty. -/
structure PartitionFieldSummary where
  containsNull : Bool
  containsNan : Option Bool := none
  lowerBound : Bytes := []
  upperBound : Bytes := []
  deriving DecidableEq

structure ManifestFile where
  addedFilesCount : Int32 := 0
  addedRowsCount : Int64 := 0
  content : ManifestContent := .data
  deletedFilesCount : Int32 := 0
  deletedRowsCount : Int64 := 0
  existingFilesCount : Int32 := 0
  existingRowsCount : Int64 := 0
  length : Int64 := 0
  minSequenceNumber : Int64 := 0
  partitionSpecId : Int32 := 0
  path : Bytes := []
  sequenceNumber : Int64 := 0
  snapshotId : Int64 := 0
  partitions : List PartitionFieldSummary := []
  deriving DecidableEq

namespace Generated

/-- `iceberg::r508`. -/
structure R508 where
  containsNull : Bool := false
  containsNan : Option Bool := none
  lowerBound : Option Bytes := none
  upperBound : Option Bytes := none

/-- `iceberg::manifest_file`. -/
structure ManifestFile where
  manifestPath : Bytes := []
  manifestLength : Int64 := 0
  partitionSpecId : Int32 := 0
  content : Int32 := 0
  sequenceNumber : Int64 := 0
  minSequenceNumber : Int64 := 0
  addedSnapshotId : Int64 := 0
  addedFilesCount : Int32 := 0
  addedDataFilesCount : Int32 := 0
  existingFilesCount : Int32 := 0
  existingDataFilesCount : Int32 := 0
  deletedFilesCount : Int32 := 0
  deletedDataFilesCount : Int32 := 0
  addedRowsCount : Int64 := 0
  existingRowsCount : Int64 := 0
  deletedRowsCount : Int64 := 0
  partitions : Option (List R508) := none
  keyMetadata : Option Bytes := none

/-- `codec_traits<iceberg::r508>`. -/
def r508Codec : AvroCodec R508 :=
  .record (bytes "r508")
    (.cons (bytes "contains_null") .boolean
      (.cons (bytes "contains_nan") (.optional .boolean)
      (.cons (bytes "lower_bound") (.optional .binary)
      (.cons (bytes "upper_bound") (.optional .binary) .nil))))
    (fun v => (v.containsNull, v.containsNan, v.lowerBound, v.upperBound, ()))
    (fun (containsNull, containsNan, lowerBound, upperBound, ()) =>
      { containsNull, containsNan, lowerBound, upperBound })
    (fun _ => rfl)

/-- `codec_traits<iceberg::manifest_file>`. -/
def manifestFileCodec : AvroCodec ManifestFile :=
  .record (bytes "manifest_file")
    (.cons (bytes "manifest_path") .string
      (.cons (bytes "manifest_length") .int64
      (.cons (bytes "partition_spec_id") .int32
      (.cons (bytes "content") .int32
      (.cons (bytes "sequence_number") .int64
      (.cons (bytes "min_sequence_number") .int64
      (.cons (bytes "added_snapshot_id") .int64
      (.cons (bytes "added_files_count") .int32
      (.cons (bytes "added_data_files_count") .int32
      (.cons (bytes "existing_files_count") .int32
      (.cons (bytes "existing_data_files_count") .int32
      (.cons (bytes "deleted_files_count") .int32
      (.cons (bytes "deleted_data_files_count") .int32
      (.cons (bytes "added_rows_count") .int64
      (.cons (bytes "existing_rows_count") .int64
      (.cons (bytes "deleted_rows_count") .int64
      (.cons (bytes "partitions") (.optional (.array r508Codec))
      (.cons (bytes "key_metadata") (.optional .binary) .nil))))))))))))))))))
    (fun v =>
      (v.manifestPath, v.manifestLength, v.partitionSpecId, v.content, v.sequenceNumber, v.minSequenceNumber,
        v.addedSnapshotId, v.addedFilesCount, v.addedDataFilesCount, v.existingFilesCount, v.existingDataFilesCount,
        v.deletedFilesCount, v.deletedDataFilesCount, v.addedRowsCount, v.existingRowsCount, v.deletedRowsCount,
        v.partitions, v.keyMetadata, ()))
    (fun (manifestPath, manifestLength, partitionSpecId, content, sequenceNumber, minSequenceNumber, addedSnapshotId,
        addedFilesCount, addedDataFilesCount, existingFilesCount, existingDataFilesCount, deletedFilesCount,
        deletedDataFilesCount, addedRowsCount, existingRowsCount, deletedRowsCount, partitions, keyMetadata, ()) =>
      { manifestPath, manifestLength, partitionSpecId, content, sequenceNumber, minSequenceNumber, addedSnapshotId,
        addedFilesCount, addedDataFilesCount, existingFilesCount, existingDataFilesCount, deletedFilesCount,
        deletedDataFilesCount, addedRowsCount, existingRowsCount, deletedRowsCount, partitions, keyMetadata })
    (fun _ => rfl)

end Generated

/-! ### The declared schema -/

def fieldDeclaration (name : String) (type : Json) : Json :=
  .object [(bytes "name", .string (bytes name)), (bytes "type", type)]

def fieldDeclarationDefault (name : String) (type default : Json) : Json :=
  .object [(bytes "name", .string (bytes name)), (bytes "type", type), (bytes "default", default)]

def typeName (name : String) : Json := .string (bytes name)

/-- `kManifestListSchemaJson`. -/
def kManifestListSchemaJson : Json :=
  .object
    [(bytes "type", typeName "record"),
      (bytes "name", typeName "manifest_file"),
      (bytes "fields", .array
        [fieldDeclaration "manifest_path" (typeName "string"),
          fieldDeclaration "manifest_length" (typeName "long"),
          fieldDeclaration "partition_spec_id" (typeName "int"),
          fieldDeclaration "content" (typeName "int"),
          fieldDeclaration "sequence_number" (typeName "long"),
          fieldDeclaration "min_sequence_number" (typeName "long"),
          fieldDeclaration "added_snapshot_id" (typeName "long"),
          fieldDeclarationDefault "added_files_count" (typeName "int") (.int 0),
          fieldDeclarationDefault "added_data_files_count" (typeName "int") (.int 0),
          fieldDeclarationDefault "existing_files_count" (typeName "int") (.int 0),
          fieldDeclarationDefault "existing_data_files_count" (typeName "int") (.int 0),
          fieldDeclarationDefault "deleted_files_count" (typeName "int") (.int 0),
          fieldDeclarationDefault "deleted_data_files_count" (typeName "int") (.int 0),
          fieldDeclaration "added_rows_count" (typeName "long"),
          fieldDeclaration "existing_rows_count" (typeName "long"),
          fieldDeclaration "deleted_rows_count" (typeName "long"),
          fieldDeclarationDefault "partitions"
            (.array
              [typeName "null",
                .object
                  [(bytes "type", typeName "array"),
                    (bytes "items", .object
                      [(bytes "type", typeName "record"),
                        (bytes "name", typeName "r508"),
                        (bytes "fields", .array
                          [fieldDeclaration "contains_null" (typeName "boolean"),
                            fieldDeclarationDefault "contains_nan" (.array [typeName "null", typeName "boolean"]) .null,
                            fieldDeclarationDefault "lower_bound" (.array [typeName "null", typeName "bytes"]) .null,
                            fieldDeclarationDefault "upper_bound" (.array [typeName "null", typeName "bytes"]) .null])])]])
            .null,
          fieldDeclarationDefault "key_metadata" (.array [typeName "null", typeName "bytes"]) .null])]

/-! ### Conversions -/

/-- `ConvertPartitions` of what was read. -/
def readPartitions : Option (List Generated.R508) → List PartitionFieldSummary
  | none => []
  | some src => src.map (fun p =>
      { containsNull := p.containsNull
        containsNan := p.containsNan
        lowerBound := p.lowerBound.getD []
        upperBound := p.upperBound.getD [] })

/-- An empty bound is not set. -/
def boundOf (bound : Bytes) : Option Bytes := if bound.length ≠ 0 then some bound else none

/-- `ConvertPartitions` of what is written. -/
def writePartitions (partitions : List PartitionFieldSummary) : Option (List Generated.R508) :=
  if partitions = [] then none
  else some (partitions.map (fun p =>
      { containsNull := p.containsNull
        containsNan := p.containsNan
        lowerBound := boundOf p.lowerBound
        upperBound := boundOf p.upperBound }))

/-- `Convert` of what was read. A zero count is taken from the column with Spark's name. -/
def readManifestFile (manifestFile : Generated.ManifestFile) : ManifestFile where
  addedFilesCount :=
    if manifestFile.addedFilesCount ≠ 0 then manifestFile.addedFilesCount else manifestFile.addedDataFilesCount
  addedRowsCount := manifestFile.addedRowsCount
  content := if manifestFile.content = 0 then .data else .deletes
  deletedFilesCount :=
    if manifestFile.deletedFilesCount ≠ 0 then manifestFile.deletedFilesCount else manifestFile.deletedDataFilesCount
  deletedRowsCount := manifestFile.deletedRowsCount
  existingFilesCount :=
    if manifestFile.existingFilesCount ≠ 0 then manifestFile.existingFilesCount
    else manifestFile.existingDataFilesCount
  existingRowsCount := manifestFile.existingRowsCount
  length := manifestFile.manifestLength
  minSequenceNumber := manifestFile.minSequenceNumber
  partitionSpecId := manifestFile.partitionSpecId
  path := manifestFile.manifestPath
  sequenceNumber := manifestFile.sequenceNumber
  snapshotId := manifestFile.addedSnapshotId
  partitions := readPartitions manifestFile.partitions

/-- `Convert` of what is written. -/
def writeManifestFile (manifest : ManifestFile) : Generated.ManifestFile where
  manifestPath := manifest.path
  manifestLength := manifest.length
  partitionSpecId := manifest.partitionSpecId
  content := if manifest.content = .data then 0 else 1
  sequenceNumber := manifest.sequenceNumber
  minSequenceNumber := manifest.minSequenceNumber
  addedSnapshotId := manifest.snapshotId
  addedFilesCount := manifest.addedFilesCount
  existingFilesCount := manifest.existingFilesCount
  deletedFilesCount := manifest.deletedFilesCount
  addedRowsCount := manifest.addedRowsCount
  existingRowsCount := manifest.existingRowsCount
  deletedRowsCount := manifest.deletedRowsCount
  addedDataFilesCount := manifest.addedFilesCount
  existingDataFilesCount := manifest.existingFilesCount
  deletedDataFilesCount := manifest.deletedFilesCount
  partitions := writePartitions manifest.partitions

/-! ### Files -/

def manifestListSchema (avro : AvroLibrary) : Except String AvroSchema :=
  avro.compileJsonSchema kManifestListSchemaJson

/-- The generated codec decodes each record that the file reader resolves to the list's schema. -/
def readManifestList (avro : AvroLibrary) (input : avro.File) : Except String (List ManifestFile) := do
  let schema ← manifestListSchema avro
  let data ← avro.readFile input schema
  let manifestFiles ← data.mapM Generated.manifestFileCodec.decode
  return manifestFiles.map readManifestFile

def writeManifestList (avro : AvroLibrary) (manifestList : List ManifestFile) : Except String avro.File := do
  let schema ← manifestListSchema avro
  return avro.writeFile schema ∅ (manifestList.map (fun manifest =>
    Generated.manifestFileCodec.encode (writeManifestFile manifest)))

end IcebergCxx
