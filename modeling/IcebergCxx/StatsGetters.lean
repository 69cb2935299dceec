import IcebergCxx.ManifestSkipping

/-!
# The bounds of a column

`ParquetStatsGetter` reads the bounds of a column of a row group from the footer of a Parquet file,
`ManifestEntryStatsGetter` those of a column of a data file from its manifest entry. The Parquet
types `FLOAT` and `DOUBLE` are left out with the value types they would give.
-/

namespace IcebergCxx

open Lib

/-! ### Row groups -/

/-- `parquet::Type`. -/
inductive ParquetPhysicalType
  | boolean
  | int32
  | int64
  | int96
  | byteArray
  | fixedLenByteArray

/-- The values of a column; nothing reads those of the last two types. -/
def ParquetPhysicalType.Values : ParquetPhysicalType → Type
  | .boolean => Bool
  | .int32 => SignedInt 32
  | .int64 => SignedInt 64
  | .byteArray => Bytes
  | .int96 | .fixedLenByteArray => Unit

/-- `parquet::LogicalType::TimeUnit`. -/
inductive ParquetTimeUnit
  | millis
  | micros
  | nanos
deriving DecidableEq

/-- `parquet::LogicalType`: those that the checks tell apart. -/
inductive ParquetLogicalType
  | none
  | int (bitWidth : Nat) (isSigned : Bool)
  | string
  | date
  | time (isAdjustedToUtc : Bool) (timeUnit : ParquetTimeUnit)
  | timestamp (isAdjustedToUtc : Bool) (timeUnit : ParquetTimeUnit)
  | other

/-- `ValdateLogicalType`. -/
def valdateLogicalType : ValueType → ParquetLogicalType → Bool
  | .bool, .none => true
  | .int2, .none => true
  | .int2, .int bitWidth isSigned => isSigned && bitWidth == 16
  | .int4, .none => true
  | .int4, .int bitWidth isSigned => isSigned && (bitWidth == 16 || bitWidth == 32)
  | .int8, .none => true
  | .int8, .int bitWidth isSigned => isSigned && bitWidth == 64
  | .string, .string => true
  | .date, .date => true
  | .time, .time isAdjustedToUtc timeUnit => !isAdjustedToUtc && timeUnit = .micros
  | .timestamp, .timestamp isAdjustedToUtc timeUnit => !isAdjustedToUtc && timeUnit = .micros
  | .timestamptz, .timestamp isAdjustedToUtc timeUnit => isAdjustedToUtc && timeUnit = .micros
  | _, _ => false

/-- The 16-bit integer that a conversion makes of `x`. -/
def toInt16 (x : Int) : SignedInt 16 := ⟨Int.bmod x (2 ^ 16), bmod_bounds 16 (by decide) x⟩

/-- `kConversions` of `ParquetStatsGetter::GetStats`, with the conversion of a bound that
`GenericMinMaxStats::Make` makes. -/
def parquetConversion : (parquetType : ParquetPhysicalType) → (valueType : ValueType) →
    Option (parquetType.Values → PhysicalType valueType)
  | .boolean, .bool => some fun (x : Bool) => x
  | .int32, .int2 => some fun (x : SignedInt 32) => toInt16 x.val
  | .int32, .int4 => some fun (x : SignedInt 32) => x
  | .int64, .int8 => some fun (x : SignedInt 64) => x
  | .byteArray, .string => some fun (x : Bytes) => x
  | .int64, .time => some fun (x : SignedInt 64) => x
  | .int64, .timestamp => some fun (x : SignedInt 64) => x
  | .int64, .timestamptz => some fun (x : SignedInt 64) => x
  | .int32, .date => some fun (x : SignedInt 32) => x
  | _, _ => none

/-- `parquet::Statistics`: the bounds if there are any, and the number of nulls if it is known. -/
structure ParquetStatistics where
  physicalType : ParquetPhysicalType
  minMax : Option (MinMaxStats physicalType.Values)
  numValues : Int
  nullCount : Option Int

/-- The parts of `parquet::ColumnChunkMetaData` and its column that the getter reads. -/
structure ColumnChunkMetaData where
  logicalType : ParquetLogicalType
  statistics : Option ParquetStatistics

/-- The counts of `GenericStatsFromTypedStats`. -/
def ParquetStatistics.countStats (stats : ParquetStatistics) : CountStats :=
  match stats.nullCount with
  | none => { containsNull := true, containsNonNull := true }
  | some nullCount => { containsNull := decide (nullCount > 0), containsNonNull := decide (stats.numValues > 0) }

structure ParquetStatsGetter where
  rgMeta : List ColumnChunkMetaData
  nameToParquetIndex : OrdMap Bytes Int

namespace ParquetStatsGetter

/-- The column chunk with a name. -/
def columnChunk (getter : ParquetStatsGetter) (columnName : Bytes) : Option ColumnChunkMetaData :=
  match getter.nameToParquetIndex.find? columnName with
  | none => none
  | some parquetIndex => if parquetIndex < 0 then none else getter.rgMeta[parquetIndex.toNat]?

/-- `GetStats`. -/
def getStats (getter : ParquetStatsGetter) (columnName : Bytes) (valueType : ValueType) : Option GenericStats := do
  let colMeta ← getter.columnChunk columnName
  let stats ← colMeta.statistics
  let minMax ← stats.minMax
  let convert ← parquetConversion stats.physicalType valueType
  if valdateLogicalType valueType colMeta.logicalType then
    some { minMax := ⟨valueType, ⟨convert minMax.min, convert minMax.max⟩⟩, count := stats.countStats }
  else none

end ParquetStatsGetter

/-! ### Manifest entries -/

/-- `absl::AsciiStrToLower`. -/
def asciiStrToLower (s : Bytes) : Bytes := s.map (fun c => if 65 ≤ c.val ∧ c.val ≤ 90 then c + 32 else c)

structure ManifestEntryStatsGetter where
  entry : ManifestEntry
  schema : Schema

namespace ManifestEntryStatsGetter

/-- The first column whose name differs at most in the case of its letters. -/
def field (getter : ManifestEntryStatsGetter) (columnName : Bytes) : Option NestedField :=
  getter.schema.columns.find? (fun col => asciiStrToLower col.name = asciiStrToLower columnName)

/-- `GetStats`. -/
def getStats (getter : ManifestEntryStatsGetter) (columnName : Bytes) (valueType : ValueType) :
    Option GenericStats := do
  let field ← getter.field columnName
  let maxBytes ← getter.entry.dataFile.upperBounds.find? field.fieldId
  let minBytes ← getter.entry.dataFile.lowerBounds.find? field.fieldId
  let minMax ← genericStatsFromTypedStats field.type valueType minBytes maxBytes
  some { minMax := minMax }

end ManifestEntryStatsGetter

end IcebergCxx
