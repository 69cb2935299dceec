import IcebergCxx.Basic

/-!
# Filter expressions

The expression trees that the statistics filter and the row filter share. Floating point
types are left out.
-/

namespace IcebergCxx

open Lib

/-- A signed integer of a machine word. -/
abbrev SignedInt (bits : Nat) := {x : Int // -2 ^ (bits - 1) ≤ x ∧ x < 2 ^ (bits - 1)}

lemma bmod_bounds (bits : Nat) (hb : 0 < bits) (x : Int) :
    -2 ^ (bits - 1) ≤ Int.bmod x (2 ^ bits) ∧ Int.bmod x (2 ^ bits) < 2 ^ (bits - 1) := by
  have hpos : 0 < 2 ^ bits := Nat.two_pow_pos bits
  have hhalf : ((2 ^ bits : Nat) : Int) = 2 * 2 ^ (bits - 1) := by
    obtain ⟨k, rfl⟩ : ∃ k, bits = k + 1 := ⟨bits - 1, by omega⟩
    push_cast
    rw [pow_succ]
    ring
  have h1 := Int.le_bmod (x := x) hpos
  have h2 := Int.bmod_lt (x := x) hpos
  rw [hhalf] at h1 h2
  constructor
  · omega
  · omega

/-- The 32-bit result of an operation with exact result `x`. -/
def toInt32 (x : Int) : SignedInt 32 := ⟨Int.bmod x (2 ^ 32), bmod_bounds 32 (by decide) x⟩

/-- The 64-bit result of an operation with exact result `x`. -/
def toInt64 (x : Int) : SignedInt 64 := ⟨Int.bmod x (2 ^ 64), bmod_bounds 64 (by decide) x⟩

inductive ValueType
  | bool
  | int2
  | int4
  | int8
  | numeric
  | string
  | date
  | timestamp
  | timestamptz
  | time
  | interval
deriving DecidableEq, Repr

/-- `PhysicalType`. A numeric is the text of its digits, an interval its months and micros. -/
def PhysicalType : ValueType → Type
  | .bool => Bool
  | .int2 => SignedInt 16
  | .int4 | .date => SignedInt 32
  | .int8 | .timestamp | .timestamptz | .time => SignedInt 64
  | .numeric | .string => Bytes
  | .interval => SignedInt 64 ×ₗ SignedInt 64

instance instLinearOrderPhysicalType : (type : ValueType) → LinearOrder (PhysicalType type)
  | .bool => inferInstanceAs (LinearOrder Bool)
  | .int2 => inferInstanceAs (LinearOrder (SignedInt 16))
  | .int4 | .date => inferInstanceAs (LinearOrder (SignedInt 32))
  | .int8 | .timestamp | .timestamptz | .time => inferInstanceAs (LinearOrder (SignedInt 64))
  | .numeric | .string => inferInstanceAs (LinearOrder Bytes)
  | .interval => inferInstanceAs (LinearOrder (SignedInt 64 ×ₗ SignedInt 64))

/-- Whether `PhysicalType` has an `operator<`. -/
def ValueType.isComparable : ValueType → Bool
  | .numeric | .interval => false
  | _ => true

/-- A value that is not null, with its type. -/
abbrev Scalar := Σ type : ValueType, PhysicalType type

/-- `Value`: a nullable value of a type. -/
abbrev Value := Σ type : ValueType, Option (PhysicalType type)

/-- `ArrayHolder`: an array of nullable values of one type. -/
abbrev ArrayHolder := Σ type : ValueType, List (Option (PhysicalType type))

inductive FunctionID
  | lessThan | lessThanOrEqualTo | greaterThan | greaterThanOrEqualTo | equal | notEqual
  | addWithoutChecks | subtractWithoutChecks | multiplyWithoutChecks | divideWithoutChecks
  | addWithChecks | subtractWithChecks | multiplyWithChecks | divideWithChecks | moduloWithChecks
  | like | iLike | notLike | notILike
  | bitwiseAnd | bitwiseOr | xor | bitwiseNot
  | isNull
  | castInt4 | castInt8 | castTimestamp | castTimestamptz | castFloat8 | castDate
  | sign | ceil | floor | round | sqrt | cbrt | exp | log10
  | sin | cos | tan | cot | atan | atan2 | sinh | cosh | tanh | asin | acos
  | extractTimestamp | dateTrunc | dateDiff
  | absolute | negative
  | charLength | lower | upper | lTrim | rTrim | bTrim | substring | locate | concatenate
deriving DecidableEq, Repr

structure FunctionSignature where
  functionId : FunctionID
  returnType : ValueType
  argumentTypes : List ValueType
deriving DecidableEq, Repr

/-- `LogicalNode::Operation`. -/
inductive LogicalOperation
  | and
  | or
  | not
deriving DecidableEq, Repr

inductive Node
  | variable (valueType : ValueType) (columnName : Bytes)
  | const (value : Value)
  | function (signature : FunctionSignature) (arguments : List Node)
  | scalarOverArray (signature : FunctionSignature) (useOr : Bool) (scalar : Node) (array : ArrayHolder)
  | ifNode (condition thenNode elseNode : Node)
  | logical (operation : LogicalOperation) (arguments : List Node)

/-- The comparisons: before them operands of different types are cast to a common one. -/
def FunctionID.isComparison : FunctionID → Bool
  | .lessThan | .lessThanOrEqualTo | .greaterThan | .greaterThanOrEqualTo | .notEqual | .equal => true
  | _ => false

def microsInDay : Int := 24 * 60 * 60 * 1000 * 1000

end IcebergCxx
