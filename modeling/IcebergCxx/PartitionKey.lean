import IcebergCxx.ManifestEntry

/-!
# Serialized partition keys

`SerializePartitionTuple` turns a partition tuple into the string by which the scan
metadata builder groups files: every field contributes its name, the name of its type, the
index of its variant alternative, the raw bytes of its value, and then the decimal length
of all that.
-/

namespace IcebergCxx

open Lib

/-- `std::variant::index` of the value holder. -/
def AvroValue.index : AvroValue → Nat
  | .null => 0
  | .bool _ => 1
  | .int _ => 2
  | .long _ => 3
  | .float _ => 4
  | .double _ => 5
  | .string _ => 6
  | .bytes _ => 7
  | .fixed _ => 8

/-- `SerializeValue`, on every alternative. -/
def serializeValue : AvroValue → Bytes
  | .null => bytes "null"
  | .bool value => [if value then 1 else 0]
  | .int value => leBytes 4 value.toNat
  | .long value => leBytes 8 value.toNat
  | .float bits => leBytes 4 bits.toNat
  | .double bits => leBytes 8 bits.toNat
  | .string value => value
  | .bytes value => value
  | .fixed value => value

/-- `SerializePartitionKey`. -/
def serializePartitionKey (key : PartitionKey) : Bytes :=
  key.name ++ (key.type.map IceType.toText).getD [] ++ toDecimal key.value.index ++ serializeValue key.value

/-- One serialized key followed by its decimal length. -/
def sizedKey (key : Bytes) : Bytes := key ++ toDecimal key.length

/-- `SerializePartitionTuple`. -/
def serializePartitionTuple (tuple : PartitionTuple) : Bytes :=
  tuple.fields.flatMap (fun field => sizedKey (serializePartitionKey field))

/-- `PartitionKey::Validate`, with the lengths the Avro types fix: `decimalSize` is the
number of bytes `arrow::DecimalType::DecimalSize` gives to a precision. -/
def valueFits (decimalSize : Int → Nat) : IceType → AvroValue → Bool
  | .boolean, .bool _ => true
  | .int, .int _ => true
  | .date, .int _ => true
  | .long, .long _ => true
  | .time, .long _ => true
  | .timestamp, .long _ => true
  | .timestamptz, .long _ => true
  | .timestampNs, .long _ => true
  | .timestamptzNs, .long _ => true
  | .float, .float _ => true
  | .double, .double _ => true
  | .string, .string _ => true
  | .binary, .bytes _ => true
  | .fixed size, .fixed value => value.length = size
  | .uuid, .fixed value => value.length = 16
  | .decimal precision _, .fixed value => value.length = decimalSize precision
  | _, _ => false

/-- A partition key of a field of a specification: null without a type, or a value of the
field's type. -/
def conformsField (decimalSize : Int → Nat) (field : PartitionKeyField) (key : PartitionKey) : Bool :=
  key.name = field.name &&
  match key.type with
  | none => key.value = .null
  | some type => field.type = some type && valueFits decimalSize type key.value

/-- A partition tuple with the fields of a specification, in order. -/
def Conforms (decimalSize : Int → Nat) (spec : List PartitionKeyField) (tuple : PartitionTuple) : Prop :=
  List.Forall₂ (fun field key => conformsField decimalSize field key = true) spec tuple.fields

/-- A field whose values have no fixed width. -/
def PartitionKeyField.isVariable (field : PartitionKeyField) : Bool :=
  field.type = some .string || field.type = some .binary

end IcebergCxx
