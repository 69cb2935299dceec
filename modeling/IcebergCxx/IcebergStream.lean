import IcebergCxx.EqualityDelete
import IcebergCxx.ScanMetadata

/-!
# Data files as streams of batches

What the readers of `streams/iceberg` share: the place of a file in the plan, the batch that a
stream returns, the names that field ids get in a batch, and the field ids `FileReaderBuilder`
reads of a data file. A batch keeps the columns that an equality delete can look at.
-/

namespace IcebergCxx

open Lib

/-- `PartitionLayerFile`. -/
structure PartitionLayerFile where
  partition : Int
  layer : Int
  path : Bytes
  deriving DecidableEq

/-- `IcebergBatch`: a record batch with named columns, the rows of it that are selected, and the
position of its first row. -/
structure IcebergBatch extends PartitionLayerFile where
  rowPosition : Int
  columns : List (Bytes × KeyArray)
  selectionVector : List Nat

/-- `RecordBatch::GetColumnByName`: nothing when the name is missing or ambiguous. -/
def IcebergBatch.getColumnByName (batch : IcebergBatch) (name : Bytes) : Option KeyArray :=
  match batch.columns.filter (fun column => column.1 = name) with
  | [column] => some column.2
  | _ => none

/-! ### Names of field ids -/

structure FieldIdMapper where
  knownFieldIdToName : OrdMap Int Bytes

namespace FieldIdMapper

def usedNames (mapper : FieldIdMapper) : List Bytes := mapper.knownFieldIdToName.values

def unnamedColumn (fieldId : Int) (c : Nat) : Bytes :=
  bytes "__unnamed_c" ++ toDecimal c ++ bytes "_f" ++ toDecimalInt fieldId

/-- The search for an unused name ends after as many tries as there are used names. -/
def generateNameForUnnamedColumn (mapper : FieldIdMapper) (fieldId : Int) : Bytes :=
  (((List.range (mapper.usedNames.length + 1)).map (unnamedColumn fieldId)).find?
    (fun name => name ∉ mapper.usedNames)).getD []

def fieldIdToColumnName (mapper : FieldIdMapper) (fieldId : Int) : Bytes :=
  (mapper.knownFieldIdToName.find? fieldId).getD (mapper.generateNameForUnnamedColumn fieldId)

/-- The loop of `GenerateNameForUnnamedColumn`, for as many values of the counter as it is given. The counter is
a `uint64_t`. -/
def generateNameLoop (mapper : FieldIdMapper) (fieldId : Int) : Nat → UInt64 → Option Bytes
  | 0, _ => none
  | rounds + 1, c =>
    let result := unnamedColumn fieldId c.toNat
    if result ∈ mapper.usedNames then generateNameLoop mapper fieldId rounds (c + 1) else some result

/-- `FieldIdToColumnName`, with the loop run for a number of rounds. -/
def fieldIdToColumnNameWithin (mapper : FieldIdMapper) (rounds : Nat) (fieldId : Int) : Option Bytes :=
  match mapper.knownFieldIdToName.find? fieldId with
  | some name => some name
  | none => generateNameLoop mapper fieldId rounds 0

/-- `MakeMapper`. -/
def ofSchema (schema : Schema) : FieldIdMapper where
  knownFieldIdToName := schema.columns.foldl (fun names column => names.insert column.fieldId column.name) ∅

end FieldIdMapper

/-! ### The columns to read -/

/-- A `std::set` made of a vector, and a vector that was sorted and made unique. -/
def sortUnique (l : List Int) : List Int := (l.insertionSort (· ≤ ·)).dedup

structure EqualityDeletes where
  partlayerToDeletes : OrdMap Int (OrdMap Int (List EqualityDeleteInfo))

namespace EqualityDeletes

/-- The deletes of a partition with their layers, in the order of the layers. -/
def deletesOf (deletes : EqualityDeletes) (partition : Int) : List (Int × EqualityDeleteInfo) :=
  match deletes.partlayerToDeletes.find? partition with
  | none => []
  | some layers => layers.entries.flatMap (fun (layerId, dels) => dels.map (fun del => (layerId, del)))

/-- `EqualityDeletes::GetFieldIds`: layers below that of the data are passed over. -/
def getFieldIds (deletes : EqualityDeletes) (partition layer : Int) : List Int :=
  sortUnique (((deletes.deletesOf partition).filter (fun del => ¬ del.1 < layer)).flatMap (fun del => del.2.fieldIds))

end EqualityDeletes

/-- What `FileReaderBuilder` is given: the projection, the field ids of the row filter (none for a
filter that passes everything through), the equality deletes and the names. -/
structure FileReaderBuilder where
  fieldIdsToRetrieve : List Int
  rowFilterFieldIds : List Int
  equalityDeletes : EqualityDeletes
  mapper : FieldIdMapper

namespace FileReaderBuilder

variable (builder : FileReaderBuilder) (file : PartitionLayerFile)

def fieldIdsRequired : List Int :=
  sortUnique (builder.fieldIdsToRetrieve ++ builder.equalityDeletes.getFieldIds file.partition file.layer)

def fieldIdsForFilter : List Int := sortUnique builder.rowFilterFieldIds

/-- The difference of the two, read by the data stream. -/
def fieldIdsForData : List Int :=
  (builder.fieldIdsRequired file).filter (fun id => id ∉ builder.fieldIdsForFilter)

/-- The field ids that are read of a file, by one of the two streams. -/
def fieldIdsRead : List Int := builder.fieldIdsForData file ++ builder.fieldIdsForFilter

end FileReaderBuilder

/-- The part of a data file that one batch covers; the file has a column for every field id. -/
structure DataBatch where
  rowPosition : Int
  arrays : Int → KeyArray
  selectionVector : List Nat

/-- A batch as `FilteringStream` concatenates it of the data and the filter columns. -/
def FileReaderBuilder.makeBatch (builder : FileReaderBuilder) (file : PartitionLayerFile) (data : DataBatch) :
    IcebergBatch where
  toPartitionLayerFile := file
  rowPosition := data.rowPosition
  columns := (builder.fieldIdsRead file).map (fun id => (builder.mapper.fieldIdToColumnName id, data.arrays id))
  selectionVector := data.selectionVector

end IcebergCxx
