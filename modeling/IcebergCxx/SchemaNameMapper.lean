import IcebergCxx.IcebergProjection
import IcebergCxx.JsonSerde

/-!
# Name mappings

`schema_name_mapper.cpp`: the JSON text `schema.name-mapping.default` gives field ids to the root columns of data files
that have none. Nested fields of the mapping are not read.
-/

namespace IcebergCxx

open Lib

namespace SchemaNameMapper

def kNames : Bytes := bytes "names"
def kFieldId : Bytes := bytes "field-id"

/-- One name of an element, `GetString` as a C string. -/
def addName (fieldId : Int) (mp : OrdMap Bytes Int) : Json → Except String (OrdMap Bytes Int)
  | .string name => do
    ensure (!mp.contains (cString name)) "Mapper: names at the same level are not unique"
    return mp.insert (cString name) fieldId
  | _ => .error "Mapper: names field must be an array of strings"

/-- One element; without a field id its names are not looked at. -/
def addElement (mp : OrdMap Bytes Int) : Json → Except String (OrdMap Bytes Int)
  | .object members =>
    match Json.findMember kNames members with
    | none => .error "Mapper: doc elements must containnames field"
    | some (.array names) =>
      match Json.findMember kFieldId members with
      | none => .ok mp
      | some fieldId =>
        match deserializeInt32 fieldId with
        | .error _ => .error "Mapper: field-id field must be an int"
        | .ok fieldId => names.foldlM (addName fieldId.toInt) mp
    | some _ => .error "Mapper: names field must be an array"
  | _ => .error "Mapper: doc elements must be objects"

/-- The constructor of `Mapper`: its table. -/
def mapper : Json → Except String (OrdMap Bytes Int)
  | .array elements => elements.foldlM addElement ∅
  | _ => .error "Mapper: doc is not an Array"

/-- The constructor: the table of the root mapper. -/
def make (json : JsonLibrary) (text : Bytes) : Except String (OrdMap Bytes Int) :=
  match json.parse text with
  | none => .error "schema.name-mapping.default is not a valid JSON"
  | some doc => mapper doc

def getFieldIdByName (mp : OrdMap Bytes Int) (name : Bytes) : Option Int := mp.find? name

end SchemaNameMapper

/-- The part of `MakeIcebergStream` that makes the name mapper of the builder. -/
def ScanFileReaderBuilder.withNameMapping {roaring : RoaringLibrary} (builder : ScanFileReaderBuilder roaring)
    (json : JsonLibrary) (schemaNameMapping : Option Bytes) : Except String (ScanFileReaderBuilder roaring) :=
  match schemaNameMapping with
  | none => .ok { builder with schemaNameMapper := none }
  | some text => do
    let mp ← SchemaNameMapper.make json text
    return { builder with schemaNameMapper := some (SchemaNameMapper.getFieldIdByName mp) }

end IcebergCxx
