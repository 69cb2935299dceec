import IcebergCxx.Basic

/-!
# Field ids and Parquet columns

Three places turn field ids into column indices for the Parquet library: `GetParquetColumnInfos` of
`file_reader_builder.cpp`, the row group filter, and `PrepareRecordBatchReader` of the equality
delete handler. All of them number the fields of the root; the library numbers the leaves of the
schema, in the order of a walk through it.
-/

namespace IcebergCxx

open Lib

/-- `parquet::schema::Node`. Structs, lists and maps are groups; a negative field id is none. -/
inductive ParquetNode
  | primitive (name : Bytes) (fieldId : Int)
  | group (name : Bytes) (fieldId : Int) (fields : List ParquetNode)

namespace ParquetNode

def name : ParquetNode → Bytes
  | primitive name _ => name
  | group name _ _ => name

def fieldId : ParquetNode → Int
  | primitive _ fieldId => fieldId
  | group _ fieldId _ => fieldId

mutual

/-- The leaves of a node, each with the positions of the fields on the way to it. -/
def leaves : ParquetNode → List (List Nat)
  | primitive _ _ => [[]]
  | group _ _ fields => leavesFrom 0 fields

/-- The leaves of the fields of a group, the first of which has a given position. -/
def leavesFrom : Nat → List ParquetNode → List (List Nat)
  | _, [] => []
  | i, field :: fields => (leaves field).map (i :: ·) ++ leavesFrom (i + 1) fields

end

end ParquetNode

/-- `SchemaDescriptor::Column`: the leaf with an index. -/
def parquetColumn (fields : List ParquetNode) (index : Nat) : Option (List Nat) :=
  (ParquetNode.leavesFrom 0 fields)[index]?

/-! ### Data files -/

def insertOrFail (mp : OrdMap Int Nat) (key : Int) (value : Nat) : Except String (OrdMap Int Nat) := do
  ensure (!mp.contains key) "InsertOrFail: field ids are not unique"
  return mp.insert key value

/-- The field id of a root field: its own, or the one that the name mapping has for its name. -/
def rootFieldId (schemaNameMapper : Option (Bytes → Option Int)) (field : ParquetNode) : Option Int :=
  if 0 ≤ field.fieldId then some field.fieldId
  else schemaNameMapper.bind (fun getFieldIdByName => getFieldIdByName field.name)

/-- One round of the loop of `MakeFieldIdToIndexMap`. -/
def addFieldIndex (schemaNameMapper : Option (Bytes → Option Int)) (fieldIdToIndex : OrdMap Int Nat)
    (field : ParquetNode × Nat) : Except String (OrdMap Int Nat) :=
  match rootFieldId schemaNameMapper field.1 with
  | some fieldId => insertOrFail fieldIdToIndex fieldId field.2
  | none => .ok fieldIdToIndex

def makeFieldIdToIndexMap (schemaNameMapper : Option (Bytes → Option Int)) (fields : List ParquetNode) :
    Except String (OrdMap Int Nat) := fields.zipIdx.foldlM (addFieldIndex schemaNameMapper) ∅

/-- The `column_position` that `GetParquetColumnInfos` gives to a field id. -/
def columnPosition (schemaNameMapper : Option (Bytes → Option Int)) (fields : List ParquetNode) (fieldId : Int) :
    Except String (Option Nat) := do
  let fieldIdToIndex ← makeFieldIdToIndexMap schemaNameMapper fields
  return fieldIdToIndex.find? fieldId

/-! ### Statistics of row groups -/

/-- One round of the loop of the row group filter. -/
def addNameIndex (fieldIdToName : OrdMap Int Bytes) (nameToIndex : OrdMap Bytes Nat) (field : ParquetNode × Nat) :
    OrdMap Bytes Nat :=
  if field.1.fieldId = -1 then nameToIndex
  else
    match fieldIdToName.find? field.1.fieldId with
    | some name => nameToIndex.insert name field.2
    | none => nameToIndex

/-- `name_to_parquet_index` of the row group filter. -/
def nameToParquetIndex (fieldIdToName : OrdMap Int Bytes) (fields : List ParquetNode) : OrdMap Bytes Nat :=
  fields.zipIdx.foldl (addNameIndex fieldIdToName) ∅

/-- The column chunk that `ParquetStatsGetter::GetStats` looks at. -/
def statsColumn (fieldIdToName : OrdMap Int Bytes) (fields : List ParquetNode) (columnName : Bytes) : Option Nat :=
  ((nameToParquetIndex fieldIdToName fields).find? columnName).filter
    (fun index => index < (ParquetNode.leavesFrom 0 fields).length)

/-! ### Equality delete files -/

def getParquetFieldIds (fields : List ParquetNode) : List Int := fields.map ParquetNode.fieldId

/-- One round of the loop of `PrepareRecordBatchReader`. -/
def addPosition (fieldIds : List Int) (positions : OrdMap Int Nat) (id : Int × Nat) : OrdMap Int Nat :=
  if id.1 ∈ fieldIds then positions.emplace id.1 id.2 else positions

/-- `field_id_to_position` of `PrepareRecordBatchReader`. -/
def fieldIdToPosition (fields : List ParquetNode) (fieldIds : List Int) : OrdMap Int Nat :=
  (getParquetFieldIds fields).zipIdx.foldl (addPosition fieldIds) ∅

/-- The columns that `PrepareRecordBatchReader` reads, with their field ids. -/
def deleteColumns (fields : List ParquetNode) (fieldIds : List Int) : Except String (List (Int × Nat)) := do
  let positions := fieldIdToPosition fields fieldIds
  fieldIds.forM (fun id =>
    ensure (positions.contains id)
      ("Column with field id " ++ toString id ++ " is not found in equality delete file"))
  return positions.entries

end IcebergCxx
