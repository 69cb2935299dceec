import IcebergCxx.Failure
import IcebergCxx.JsonSerde
import IcebergCxx.Transforms
import IcebergCxx.Lib.Hex
import IcebergCxx.Lib.TextSearch

/-!
# Default values of columns

`SerializeLiteral` of the metadata writer turns a scalar of Arrow into a JSON value, and
`DeserializeLiteral` of `literals.cpp` reads one as a scalar of an Iceberg type. The texts that Arrow
prints and parses are a parameter. JSON values have no floating-point numbers here, and neither have
the scalars.
-/

namespace IcebergCxx

open Lib

/-! ### Hexadecimal texts -/

/-- `0x` is skipped when a digit follows. -/
def skipHexPrefix : Bytes → Bytes
  | 48 :: x :: d :: l => if (x = 120 ∨ x = 88) ∧ Hex.isDigit d = true then d :: l else 48 :: x :: d :: l
  | l => l

/-- `std::stoi` with the base 16. -/
def stoi16 (s : Bytes) : Except String Int :=
  let (sign, u) := StringStream.splitSign (s.dropWhile StringStream.isSpace)
  let digits := (skipHexPrefix u).takeWhile Hex.isDigit
  if digits.isEmpty then .error "stoi"
  else if -2 ^ 31 ≤ sign * Hex.value digits ∧ sign * Hex.value digits < 2 ^ 31 then .ok (sign * Hex.value digits)
  else .error "stoi"

/-- `static_cast<uint8_t>(std::stoi(s, nullptr, 16))`. -/
def hexByte (s : Bytes) : Except String Byte := do
  let n ← stoi16 s
  return Fin.ofNat 256 (n % 256).toNat

/-- `DeserializeHexadecimal`; `length` is an `int`, and no string view is that of a negative length. -/
def deserializeHexadecimal (str : Bytes) (length : Int) : Except Failure Bytes := do
  require (length % 2 = 0) "DeserializeHexadecimal: Expected even number of characters"
  if length < 0 then .error .undefined
  else throwing ((List.range (length / 2).toNat).mapM (fun i => hexByte ((str.drop (i * 2)).take 2)))

def hexDigits : Bytes := bytes "0123456789abcdef"

def convertBinaryToHexadecimal (binary : Bytes) : Bytes :=
  binary.foldl (fun hex byte =>
    hex ++ [hexDigits.getD (byte.val >>> 4) 0] ++ [hexDigits.getD (byte.val &&& 0x0F) 0]) []

/-! ### Scalars -/

/-- `arrow::TimeUnit`. -/
inductive TimeUnit
  | second | micro | nano
  deriving DecidableEq

/-- `arrow::DataType` of literals; the time zone of a timestamp is UTC or none. -/
inductive ArrowDataType
  | boolean | int32 | int64 | float | double | date32 | time64 | string | binary
  | decimal128 (precision scale : Int)
  | timestamp (unit : TimeUnit) (utc : Bool)
  | fixedSizeBinary (byteWidth : Int)
  | list (valueType : ArrowDataType)
  deriving DecidableEq

/-- `arrow::Scalar`; a scalar of decimals holds the unscaled value. -/
inductive ArrowScalar
  | null (type : ArrowDataType)
  | boolean (value : Bool)
  | int32 (value : Int32)
  | int64 (value : Int64)
  | decimal128 (value precision scale : Int)
  | date32 (value : Int32)
  | time64 (value : Int64)
  | timestamp (value : Int64) (unit : TimeUnit) (utc : Bool)
  | string (value : Bytes)
  | fixedSizeBinary (value : Bytes) (byteWidth : Int)
  | binary (value : Bytes)
  | list (valueType : ArrowDataType) (elements : List ArrowScalar)

def ArrowScalar.type : ArrowScalar → ArrowDataType
  | null type => type
  | boolean _ => .boolean
  | int32 _ => .int32
  | int64 _ => .int64
  | decimal128 _ precision scale => .decimal128 precision scale
  | date32 _ => .date32
  | time64 _ => .time64
  | timestamp _ unit utc => .timestamp unit utc
  | string _ => .string
  | fixedSizeBinary _ byteWidth => .fixedSizeBinary byteWidth
  | binary _ => .binary
  | list valueType _ => .list valueType

/-- `Scalar::ToString`, `Decimal128::FromString` and the parser that `TimestampParser::MakeISO8601` makes. -/
structure ArrowTexts where
  scalarToString : ArrowScalar → Bytes
  decimalFromString : Bytes → Option Int
  parseISO8601 : Bytes → TimeUnit → Option Int64

def convertToDataType : IceType → ArrowDataType
  | .boolean => .boolean
  | .int => .int32
  | .long => .int64
  | .float => .float
  | .double => .double
  | .decimal precision scale => .decimal128 precision scale
  | .date => .date32
  | .time => .time64
  | .timestamp => .timestamp .micro false
  | .timestamptz => .timestamp .micro true
  | .timestampNs => .timestamp .nano false
  | .timestamptzNs => .timestamp .nano true
  | .string => .string
  | .uuid => .fixedSizeBinary 16
  | .fixed size => .fixedSizeBinary size
  | .binary => .binary
  | .list _ _ elementType => .list (convertToDataType elementType)

/-! ### Writing -/

/-- The zeros that a negative scale takes off the end. -/
def popZeros : Nat → Bytes → Except Failure Bytes
  | 0, str => .ok str
  | n + 1, str =>
    if str.getLast? = some 48 then popZeros n str.dropLast
    else .error (.thrown "Decimals with a negative scale must have at least -scale zeros at the end")

def serializeDecimal (str : Bytes) (scale : Int) : Except Failure Json := do
  let str ← popZeros (-scale).toNat str
  return .string (str ++ bytes "E+" ++ toDecimalInt (-scale))

/-- The loop from the last hyphen to the first one. -/
def insertHyphens (str : Bytes) : Bytes := [20, 16, 12, 8].foldl (fun str ind => str.insertIdx ind 45) str

def serializeUuid (str : Bytes) : Except Failure Json := do
  require (str.length = 32) "SerializeLiteral: uuid length must be 32 characters without delimiters"
  return .string (insertHyphens str)

/-- `SerializeLiteral`. A scalar of another class and the value of a null scalar are not to be looked at. -/
def serializeLiteral (lib : ArrowTexts) : IceType → ArrowScalar → Except Failure Json
  | .boolean, .boolean value => .ok (.bool value)
  | .int, .int32 value => .ok (.int value.toInt)
  | .long, .int64 value => .ok (.int value.toInt)
  | .decimal _ scale, scalar => serializeDecimal (lib.scalarToString scalar) scale
  | .date, scalar => .ok (.string (lib.scalarToString scalar))
  | .time, scalar => .ok (.string (lib.scalarToString scalar))
  | .timestamp, scalar => .ok (.string (lib.scalarToString scalar))
  | .timestamptz, scalar => .ok (.string (lib.scalarToString scalar))
  | .timestampNs, scalar => .ok (.string (lib.scalarToString scalar))
  | .timestamptzNs, scalar => .ok (.string (lib.scalarToString scalar))
  | .string, scalar => .ok (.string (lib.scalarToString scalar))
  | .uuid, scalar => serializeUuid (convertBinaryToHexadecimal (lib.scalarToString scalar))
  | .fixed _, scalar => .ok (.string (convertBinaryToHexadecimal (lib.scalarToString scalar)))
  | .binary, scalar => .ok (.string (convertBinaryToHexadecimal (lib.scalarToString scalar)))
  | .list _ _ elementType, .list _ elements => do
    let array ← elements.mapM (serializeLiteral lib elementType)
    return .array array
  | _, _ => .error .undefined

lemma serializeLiteral_decimal (lib : ArrowTexts) (precision scale : Int) (scalar : ArrowScalar) :
    serializeLiteral lib (.decimal precision scale) scalar = serializeDecimal (lib.scalarToString scalar) scale := by
  rw [serializeLiteral]

/-! ### Reading -/

/-- `Ensure(document.IsString(), ...)`. -/
def expectString (function : String) : Json → Except Failure Bytes
  | .string s => .ok s
  | _ => .error (.thrown (function ++ ": Expected String value"))

/-- A parsed value, or an exception. -/
def valueOr {α : Type} (message : String) : Option α → Except Failure α
  | some a => .ok a
  | none => .error (.thrown message)

def parseTime (lib : ArrowTexts) (document : Json) (unit : TimeUnit) : Except Failure Int64 := do
  let s ← expectString "ParseTime" document
  valueOr "ParseTime: Failed to parse Date/Timestamp" (lib.parseISO8601 s unit)

def deserializeTime (lib : ArrowTexts) (document : Json) : Except Failure ArrowScalar := do
  let s ← expectString "DeserializeScalar" document
  let microsSinceEpoch ← valueOr "DeserializeScalar: Failed to parse Time"
    (lib.parseISO8601 (bytes "1970-01-01T" ++ cString s) .micro)
  return .time64 microsSinceEpoch

/-- The digits, the precision and the scale of a decimal; a negative scale is made 0 by appending zeros. -/
def expandScale (precision scale : Int) (str : Bytes) : Except Failure (Bytes × Int × Int) :=
  if scale < 0 then do
    let it ← valueOr "DeserializeScalar: Negative scale values must be presented in scientific notation"
      (find (bytes "E+") str)
    let strScale ← throwing (ParquetWrite.stoi (str.drop (it + 2)))
    require (strScale = -scale) ": The exponent must equal the negated scale"
    return (str.take it ++ List.replicate strScale.toNat 48, precision + strScale, 0)
  else .ok (str, precision, scale)

def deserializeDecimal (lib : ArrowTexts) (precision scale : Int) (document : Json) : Except Failure ArrowScalar := do
  let s ← expectString "DeserializeScalar" document
  let (str, precision, scale) ← expandScale precision scale (cString s)
  require (precision ≤ 38) "DeserializeScalar: Decimal precision greater than 38 is unsupported"
  let value ← valueOr "DeserializeScalar: failed to convert string to decimal" (lib.decimalFromString str)
  return .decimal128 value precision scale

/-- A string view ends at the first zero byte, and an `int` counts its characters. -/
def deserializeUuid (document : Json) : Except Failure ArrowScalar := do
  let s ← expectString "DeserializeScalar" document
  if cString s ≠ s ∨ 2 ^ 31 ≤ s.length then .error .undefined
  else do
    let cleanUuid := s.filter (fun c => c ≠ 45)
    let buffer ← deserializeHexadecimal cleanUuid (wrapInt32 cleanUuid.length)
    require (buffer.length = 16) "DeserializeScalar: Expected 16 bytes for UUID"
    return .fixedSizeBinary buffer 16

def deserializeBinary (document : Json) : Except Failure Bytes := do
  let s ← expectString "DeserializeScalar" document
  deserializeHexadecimal s (wrapInt32 s.length)

/-- `DeserializeScalar`. -/
def deserializeScalar (lib : ArrowTexts) : IceType → Json → Except Failure ArrowScalar
  | .boolean, .bool value => .ok (.boolean value)
  | .boolean, _ => .error .undefined
  | .int, document => do
    let value ← valueOr "DeserializeScalar: Expected Int value" (deserializeInt32 document).toOption
    return .int32 value
  | .long, document => do
    let value ← valueOr "DeserializeScalar: Expected Int64 value" (deserializeInt64 document).toOption
    return .int64 value
  | .float, _ => .error (.thrown "DeserializeScalar: Expected Float value")
  | .double, _ => .error (.thrown "DeserializeScalar: Expected Double value")
  | .decimal precision scale, document => deserializeDecimal lib precision scale document
  | .date, document => do
    let secSinceEpoch ← parseTime lib document .second
    return .date32 (Int32.ofInt (secSinceEpoch.toInt.tdiv 86400))
  | .time, document => deserializeTime lib document
  | .timestamp, document => do
    let microsSinceEpoch ← parseTime lib document .micro
    return .timestamp microsSinceEpoch .micro false
  | .timestamptz, document => do
    let microsSinceEpoch ← parseTime lib document .micro
    return .timestamp microsSinceEpoch .micro true
  | .timestampNs, document => do
    let nanosSinceEpoch ← parseTime lib document .nano
    return .timestamp nanosSinceEpoch .nano false
  | .timestamptzNs, document => do
    let nanosSinceEpoch ← parseTime lib document .nano
    return .timestamp nanosSinceEpoch .nano true
  | .string, document => do
    let s ← expectString "DeserializeScalar" document
    return .string (cString s)
  | .uuid, document => deserializeUuid document
  | .fixed size, document => do
    let buffer ← deserializeBinary document
    require (size = buffer.length) ("DeserializeScalar: Expected String length of " ++ toString size)
    return .fixedSizeBinary buffer size
  | .binary, document => do
    let buffer ← deserializeBinary document
    return .binary buffer
  | .list _ _ elementType, .array elements => do
    let scalars ← elements.mapM (deserializeScalar lib elementType)
    let valueType := convertToDataType elementType
    require (scalars.all (fun scalar => scalar.type = valueType))
      "DeserializeScalar: Failed to add scalars to ArrayBuilder"
    return .list valueType scalars
  | .list _ _ _, _ => .error (.thrown "DeserializeScalar: Expected String value")

lemma deserializeScalar_decimal (lib : ArrowTexts) (precision scale : Int) (document : Json) :
    deserializeScalar lib (.decimal precision scale) document = deserializeDecimal lib precision scale document := by
  rw [deserializeScalar]

end IcebergCxx
