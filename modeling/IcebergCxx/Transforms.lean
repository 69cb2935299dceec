import IcebergCxx.Failure
import IcebergCxx.FilterNode
import IcebergCxx.PartitionedWrite
import IcebergCxx.Lib.StringStream

/-!
# Partition transforms

`transforms.h` and `transforms.cpp`: the classes of `ITransform`, their names, and the parser that
makes a transform of a name. Hashing is that of `hash_utils.h`, in its two build configurations.
MurmurHash3 and the hashes and texts that Arrow computes are parameters. The types that `truncate`
has further cases for are left to a parameter too.
-/

namespace IcebergCxx

open Lib

namespace ParquetWrite

/-- The classes that implement `ITransform`. -/
inductive ITransform
  | identity
  | void
  | bucket (numBuckets : Int)
  | truncate (width : Int)
  | year
  | month
  | day
  | hour
  deriving DecidableEq

/-- `ToString`. -/
def ITransform.toString : ITransform → Bytes
  | .identity => bytes "identity"
  | .void => bytes "void"
  | .bucket numBuckets => bytes "bucket" ++ bytes "[" ++ toDecimalInt numBuckets ++ bytes "]"
  | .truncate width => bytes "truncate" ++ bytes "[" ++ toDecimalInt width ++ bytes "]"
  | .year => bytes "year"
  | .month => bytes "month"
  | .day => bytes "day"
  | .hour => bytes "hour"

/-! ### Names -/

def getTransformNameByType : TransformType → Bytes
  | .bucket => bytes "bucket"
  | .day => bytes "day"
  | .hour => bytes "hour"
  | .identity => bytes "identity"
  | .truncate => bytes "truncate"
  | .void => bytes "void"
  | .year => bytes "year"
  | .month => bytes "month"

/-- `std::stoi`: white space, a sign and the longest run of decimal digits. It throws when there are
no digits, or when the number is not an `int`. -/
def stoi (s : Bytes) : Except String Int :=
  let (sign, u) := StringStream.splitSign (s.dropWhile StringStream.isSpace)
  let digits := u.takeWhile Json.isDigit
  if digits.isEmpty then .error "stoi"
  else if -2 ^ 31 ≤ sign * Json.ofDecimal digits ∧ sign * Json.ofDecimal digits < 2 ^ 31 then
    .ok (sign * Json.ofDecimal digits)
  else .error "stoi"

/-- `GetTransformParam`: the text between the character after the prefix and the last one. -/
def getTransformParam (transform : Bytes) : Except String (Option Int) := do
  let type ← getTransformType transform
  let prefixSize := (getTransformNameByType type).length
  if transform.length = prefixSize then return none
  -- The count of the substring is `npos` or more when one character follows the prefix.
  let param ← stoi (if transform.length = prefixSize + 1 then []
    else (transform.drop (prefixSize + 1)).take (transform.length - 2 - prefixSize))
  return some param

/-- `*parser.GetTransformParam()`. -/
def requiredParam (transform : Bytes) : Except Failure Int := do
  match ← throwing (getTransformParam transform) with
  | some param => return param
  | none => .error .undefined

/-- `GetTransform`: the type of days has the class of hours. -/
def getTransform (name : Bytes) : Except Failure ITransform := do
  match ← throwing (getTransformType name) with
  | .identity => return .identity
  | .void => return .void
  | .bucket => do
    let numBuckets ← requiredParam name
    return .bucket numBuckets
  | .truncate => do
    let truncateLength ← requiredParam name
    return .truncate truncateLength
  | .month => return .month
  | .year => return .year
  | .hour => return .hour
  | .day => return .hour

/-! ### Hashing -/

/-- The build configuration, and what hashing and truncating take from other libraries. -/
structure TransformLibrary where
  /-- `ICECXX_USE_SMHASHER`. -/
  useSmhasher : Bool
  /-- `MurmurHash3_x86_32` with the seed 0. -/
  murmurHash3 : Bytes → SignedInt 32
  /-- `ComputeStringHash<1>`. -/
  computeStringHash : Bytes → SignedInt 64
  scalarToString : Scalar → Bytes
  hashOther : Scalar → SignedInt 64
  truncateOther : Int → Scalar → Except Failure Scalar

variable (lib : TransformLibrary)

/-- `MurMurHasher` of an integer, which returns an `int`. Without SMHasher it is `std::hash`, the
identity. -/
def murMurHasher (value : Int) : Int :=
  if lib.useSmhasher then (lib.murmurHash3 (leBytes 8 (value % 2 ^ 64).toNat)).val else wrapInt32 value

/-- `MurMurScalarHashImpl(scalar).hash_`. -/
def murMurScalarHash (scalar : Scalar) : Int :=
  if !scalar.isValid then 0
  else
    match scalar.type, scalar.value with
    | .int32, .inl value => murMurHasher lib value
    | .int64, .inl value => murMurHasher lib value
    | .date64, .inl value => murMurHasher lib value
    | .string, .inr value => (lib.computeStringHash value).val
    | _, _ => (lib.hashOther scalar).val

/-! ### Values -/

/-- `BucketTransform::Transform`. -/
def bucketTransform (numBuckets : Int) (src : Scalar) : Except Failure Scalar := do
  if numBuckets = 0 then .error .undefined
  else return int32Scalar ((murMurScalarHash lib src % 2 ^ 31).tmod numBuckets)

/-- The hash, less its remainder by the width. -/
def truncateHash (width : Int) (hash : Int) : Int := hash - (hash.tmod width + width).tmod width

/-- `TruncateTransform::Transform`. A string is cut at a number of bytes. -/
def truncateTransform (width : Int) (src : Scalar) : Except Failure Scalar :=
  match src.type with
  | .int32 =>
    if width = 0 then .error .undefined
    else .ok ⟨.int32, true, .inl (wrapInt32 (truncateHash width (murMurScalarHash lib src)))⟩
  | .int64 =>
    if width = 0 then .error .undefined
    else .ok ⟨.int64, true, .inl (truncateHash width (murMurScalarHash lib src))⟩
  | .string => .ok ⟨.string, true, .inr ((lib.scalarToString src).take (width % 2 ^ 64).toNat)⟩
  | .date64 => .error (.thrown "Unsupported type")
  | .other _ => lib.truncateOther width src

/-- A transform of the calendar casts its argument to a `Date64Scalar` without a check. -/
def calendarTransform (part : CivilTime → Int) (src : Scalar) : Except Failure Scalar :=
  match src.type, src.value with
  | .date64, .inl millis => .ok (int32Scalar (part (gmtime millis)))
  | _, _ => .error .undefined

/-- `Transform`. -/
def ITransform.transform : ITransform → Scalar → Except Failure Scalar
  | .identity, src => .ok src
  | .void, _ => .ok ⟨.int32, false, .inl 0⟩
  | .bucket numBuckets, src => bucketTransform lib numBuckets src
  | .truncate width, src => truncateTransform lib width src
  | .year, src => calendarTransform CivilTime.year src
  | .month, src => calendarTransform CivilTime.month src
  | .day, src => calendarTransform CivilTime.day src
  | .hour, src => calendarTransform CivilTime.hour src

end ParquetWrite

end IcebergCxx
