import IcebergCxx.JsonSerde
import IcebergCxx.Lib.Avro

/-!
# Declarations of Avro schemas

`avro_schema.h` and `avro_schema.cpp`: a tree of nodes is turned into the JSON declaration that the
Avro library compiles. A node becomes an object with a member `type`; field ids are not written.
-/

namespace IcebergCxx.IceAvro

open Lib

inductive Node
  | bool | int | long | date | time | timestamp | timestamptz | timestampNs | timestamptzNs
  | string | float | double | bytes
  | decimal (precision scale : Int)
  | fixed (size : Int)
  | uuid
  | array (element : Node)
  | record (name : Bytes) (fields : List (Bytes × Node))
  | optional (child : Node)

namespace Field

def kType : Bytes := Lib.bytes "type"
def kLogicalType : Bytes := Lib.bytes "logicalType"
def kAdjustToUtc : Bytes := Lib.bytes "adjust-to-utc"
def kName : Bytes := Lib.bytes "name"
def kSize : Bytes := Lib.bytes "size"
def kPrecision : Bytes := Lib.bytes "precision"
def kScale : Bytes := Lib.bytes "scale"
def kFields : Bytes := Lib.bytes "fields"
def kItems : Bytes := Lib.bytes "items"
def kDefault : Bytes := Lib.bytes "default"

end Field

/-- `arrow::DecimalType::DecimalSize`: the bytes of a signed number with this many digits. -/
def decimalSize (precision : Int) : Nat := (Nat.size (10 ^ precision.toNat - 1) + 8) / 8

def minimumBytesToStoreDecimal (precision : Int) : Except String Int := do
  ensure (precision ≤ 38) "MinimumBytesToStoreDecimal: precision is greater than 38 is not supported"
  ensure (0 < precision) "MinimumBytesToStoreDecimal: precision is less than or equal to 0 is not supported"
  return decimalSize precision

/-- A string value given by its bytes. -/
def literal (s : String) : Json := .string (Lib.bytes s)

/-- A node whose `type` is the name of a type. -/
def namedType (name : String) : List (Bytes × Json) := [(Field.kType, literal name)]

/-- A node whose `type` is itself an object. -/
def trueType (members : List (Bytes × Json)) : List (Bytes × Json) := [(Field.kType, .object members)]

/-- A `long` with a logical type, and whether it is adjusted to UTC. -/
def timestampType (logicalType : String) (adjustToUtc : Bool) : List (Bytes × Json) :=
  trueType [(Field.kType, literal "long"), (Field.kLogicalType, literal logicalType),
    (Field.kAdjustToUtc, .bool adjustToUtc)]

/-- The name of the fixed type of a decimal. -/
def decimalName (precision scale : Int) : Bytes :=
  Lib.bytes "decimal_" ++ toDecimalInt precision ++ Lib.bytes "_" ++ toDecimalInt scale

mutual

/-- `Serializer::Serialize`: the members of the object of a node. -/
def serialize : Node → Except String (List (Bytes × Json))
  | .bool => .ok (namedType "boolean")
  | .int => .ok (namedType "int")
  | .float => .ok (namedType "float")
  | .double => .ok (namedType "double")
  | .date => .ok (trueType [(Field.kType, literal "int"), (Field.kLogicalType, literal "date")])
  | .fixed size => .ok (trueType [(Field.kType, literal "fixed"), (Field.kSize, .int size)])
  | .uuid =>
    .ok (trueType [(Field.kType, literal "fixed"), (Field.kName, literal "uuid_fixed"), (Field.kSize, .int 16),
      (Field.kLogicalType, literal "uuid")])
  | .time => .ok (trueType [(Field.kType, literal "long"), (Field.kLogicalType, literal "time-micros")])
  | .timestamp => .ok (timestampType "timestamp-micros" false)
  | .timestamptz => .ok (timestampType "timestamp-micros" true)
  | .timestampNs => .ok (timestampType "timestamp-nanos" false)
  | .timestamptzNs => .ok (timestampType "timestamp-nanos" true)
  | .decimal precision scale => do
    let size ← minimumBytesToStoreDecimal precision
    return trueType [(Field.kType, literal "fixed"), (Field.kSize, .int size),
      (Field.kName, .string (decimalName precision scale)), (Field.kLogicalType, literal "decimal"),
      (Field.kPrecision, .int precision), (Field.kScale, .int scale)]
  | .long => .ok (namedType "long")
  | .string => .ok (namedType "string")
  | .bytes => .ok (namedType "bytes")
  | .record name fields => do
    let fields ← serializeFields fields
    return trueType [(Field.kType, literal "record"), (Field.kName, serializeString name),
      (Field.kFields, .array fields)]
  | .optional child => do
    let result ← serialize child
    match Json.findMember Field.kType result with
    | none => .error "Serialize: internal error. OptionalNode child must has field 'type'"
    | some type =>
      return result.eraseP (fun member => member.1 = Field.kType) ++
        [(Field.kType, .array [literal "null", type]), (Field.kDefault, .null)]
  | .array element => do
    let element ← serialize element
    match Json.findMember Field.kType element with
    | none => .error "Serialize: internal error. ArrayNode element must has field 'type'"
    | some type => return trueType [(Field.kItems, type), (Field.kType, literal "array")]

/-- The declarations of the fields of a record. -/
def serializeFields : List (Bytes × Node) → Except String (List Json)
  | [] => .ok []
  | (name, field) :: fields => do
    let fieldValue ← serialize field
    let rest ← serializeFields fields
    return .object (fieldValue ++ [(Field.kName, serializeString name)]) :: rest

end

/-- `ToJsonString`, before it is printed. -/
def toJson (node : Node) : Except String Json := do
  let jsonNode ← serialize node
  match Json.findMember Field.kType jsonNode with
  | none => .error "ToJsonString: internal error. Node must has field 'type'"
  | some value => return value

end IcebergCxx.IceAvro
