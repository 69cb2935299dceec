import IcebergCxx.ManifestEntry
import IcebergCxx.ManifestList
import IcebergCxx.StatsFilter
import IcebergCxx.Lib.Calendar
import IcebergCxx.Lib.Packing

/-!
# Skipping manifests by their partition summaries

`ManifestFileStatsGetter` turns the bounds of a manifest's partition values back into bounds of the
column they were made of, and `FilterManifests` asks the statistics filter with them whether a
manifest can be skipped. A `std::chrono::year` keeps 16 bits of its argument.
-/

namespace IcebergCxx

open Lib

def int32Max : Int := 2 ^ 31 - 1

def int32Min : Int := -2 ^ 31

def convertToInt (value : Bytes) : Except String Int := do
  ensure (value.length = 4) "ConvertToInt: byte array size doesn't match"
  return (toInt32 (ofLeBytes value)).val

/-! ### Calendar units -/

/-- `std::chrono::year`, which stores a `short`. -/
def chronoYear (y : Int) : Int := Int.bmod y (2 ^ 16)

def yearsToDays (years : Int) : Except String Int := do
  ensure (years ≤ int32Max.tdiv 366 ∧ int32Min.tdiv 366 ≤ years) "YearsToDays: days can overflow"
  return sysDays (chronoYear (1970 + years)) 1 1

def monthsToDays (months : Int) : Except String Int := do
  ensure (months ≤ int32Max.tdiv 31 ∧ int32Min.tdiv 31 ≤ months) "MonthsToDays: days can overflow"
  ensure (0 ≤ months) "MonthsToDays: handling negative months is not supported yet"
  return sysDays (chronoYear (1970 + months / 12)) (1 + months % 12) 1

def daysToHours (days : Int) : Except String Int := do
  ensure (days ≤ int32Max.tdiv 24 ∧ int32Min.tdiv 24 ≤ days) "DaysToHours: hours will overflow"
  return days * 24

def microsPerHour : Int := 3600 * 1000 * 1000

def hoursToMicros (hours : Int) : Except String Int := do
  ensure (hours ≤ int64Max.tdiv microsPerHour ∧ int64Min.tdiv microsPerHour ≤ hours) "HoursToMicros: micros will overflow"
  return hours * microsPerHour

/-! ### Bounds of a column -/

/-- `DeserializeWithMemcpy` of a signed integer. -/
def deserializeInt (width : Nat) (value : Bytes) : Option Int :=
  if value.length = width then some (Int.bmod (ofLeBytes value) (2 ^ (8 * width))) else none

/-- `DeserializeValue`, with the default that there is no value. -/
def deserializeValue : IceType → (type : ValueType) → Bytes → Option (PhysicalType type)
  | .boolean, .bool, value =>
    match value with
    | [byte] => some (decide (byte ≠ 0))
    | _ => none
  | .int, .int4, value => (deserializeInt 4 value).map toInt32
  | .int, .int2, value =>
    match deserializeInt 4 value with
    | some int4 => if h : -2 ^ 15 ≤ int4 ∧ int4 < 2 ^ 15 then some ⟨int4, h⟩ else none
    | none => none
  | .long, .int8, value => (deserializeInt 8 value).map toInt64
  | .date, .date, value => (deserializeInt 4 value).map toInt32
  | .time, .time, value => (deserializeInt 8 value).map toInt64
  | .timestamp, .timestamp, value => (deserializeInt 8 value).map toInt64
  | .timestamptz, .timestamptz, value => (deserializeInt 8 value).map toInt64
  | .string, .string, value => some value
  | _, _, _ => none

/-- `TypesToStatsConverter` and `GenericStatsFromTypedStats`; the pairs of types that are not in the
table have no value either. -/
def genericStatsFromTypedStats (iceType : IceType) (type : ValueType) (min max : Bytes) : Option GenericMinMaxStats :=
  match deserializeValue iceType type min, deserializeValue iceType type max with
  | some minValue, some maxValue => some ⟨type, ⟨minValue, maxValue⟩⟩
  | _, _ => none

/-- An `IStatsGetter` that may throw. -/
abbrev ThrowingStatsGetter := Bytes → ValueType → Except String (Option GenericStats)

structure ManifestFileStatsGetter where
  nameToType : OrdMap Bytes IceType
  nameToPosition : OrdMap Bytes Nat
  partitions : List PartitionFieldSummary
  spec : PartitionSpec

namespace ManifestFileStatsGetter

def getMinMaxDayFromTemporal (minPartitionValue maxPartitionValue : Int) (transform : Bytes) :
    Except String (Option (Int × Int)) :=
  if transform = bytes "year" then do
    let minDay ← yearsToDays minPartitionValue
    let maxDay ← yearsToDays (maxPartitionValue + 1)
    return some (minDay, maxDay - 1)
  else if transform = bytes "month" then do
    let minDay ← monthsToDays minPartitionValue
    let maxDay ← monthsToDays (maxPartitionValue + 1)
    return some (minDay, maxDay - 1)
  else if transform = bytes "day" then .ok (some (minPartitionValue, maxPartitionValue))
  else .ok none

/-- The microseconds that `GetStatsFromTemporalForTimestamp` computes. -/
def getMinMaxMicrosFromTemporal (minPartitionValue maxPartitionValue : Int) (transform : Bytes) :
    Except String (Int × Int) :=
  if transform = bytes "hour" then do
    let microsMin ← hoursToMicros minPartitionValue
    let microsMax ← hoursToMicros (maxPartitionValue + 1)
    return (microsMin, microsMax - 1)
  else do
    let minMaxDay ← getMinMaxDayFromTemporal minPartitionValue maxPartitionValue transform
    match minMaxDay with
    | none => .error "GetStatsFromTemporalForTimestamp: internal error"
    | some (minDay, maxDay) => do
      let minHour ← daysToHours minDay
      let maxHour ← daysToHours (maxDay + 1)
      let microsMin ← hoursToMicros minHour
      let microsMax ← hoursToMicros (maxHour - 1 + 1)
      return (microsMin, microsMax - 1)

def getStatsFromTemporalForTimestamp (minPartitionValue maxPartitionValue : Int) (transform : Bytes)
    (isTimestamptz : Bool) : Except String (Option GenericStats) := do
  let (microsMin, microsMax) ← getMinMaxMicrosFromTemporal minPartitionValue maxPartitionValue transform
  if isTimestamptz then
    if microsMin < int64Min + microsInDay then .ok none
    else if microsMax > int64Max - microsInDay then .ok none
    else .ok (some { minMax := ⟨.timestamptz, ⟨toInt64 (microsMin - microsInDay), toInt64 (microsMax + microsInDay)⟩⟩ })
  else .ok (some { minMax := ⟨.timestamp, ⟨toInt64 microsMin, toInt64 microsMax⟩⟩ })

def getStatsFromTemporalForDate (minPartitionValue maxPartitionValue : Int) (transform : Bytes) :
    Except String (Option GenericStats) := do
  let minMaxDay ← getMinMaxDayFromTemporal minPartitionValue maxPartitionValue transform
  match minMaxDay with
  | none => .error "GetStatsFromTemporalForDate: internal error"
  | some (minDay, maxDay) => .ok (some { minMax := ⟨.date, ⟨toInt32 minDay, toInt32 maxDay⟩⟩ })

def getStatsFromTemporalTransform (summary : PartitionFieldSummary) (transform : Bytes) (valueType : ValueType) :
    Except String (Option GenericStats) := do
  let minPartitionValue ← convertToInt summary.lowerBound
  let maxPartitionValue ← convertToInt summary.upperBound
  if maxPartitionValue = int32Max then .ok none
  else
    match valueType with
    | .date => getStatsFromTemporalForDate minPartitionValue maxPartitionValue transform
    | .timestamp => getStatsFromTemporalForTimestamp minPartitionValue maxPartitionValue transform false
    | .timestamptz => getStatsFromTemporalForTimestamp minPartitionValue maxPartitionValue transform true
    | _ => .ok none

def getStatsFromIdentityTransform (iceType : IceType) (valueType : ValueType) (summary : PartitionFieldSummary) :
    Option GenericStats :=
  (genericStatsFromTypedStats iceType valueType summary.lowerBound summary.upperBound).map (fun minMax => { minMax })

def isTemporal (transform : Bytes) : Bool :=
  transform = bytes "year" || transform = bytes "month" || transform = bytes "day" || transform = bytes "hour"

/-- `GetStats`. -/
def getStats (getter : ManifestFileStatsGetter) : ThrowingStatsGetter := fun columnName valueType =>
  match getter.nameToPosition.find? columnName with
  | none => .ok none
  | some position =>
    match getter.partitions[position]?, getter.spec.fields[position]? with
    | some summary, some field =>
      if field.transform = bytes "identity" then
        match getter.nameToType.find? columnName with
        | some iceType => .ok (getStatsFromIdentityTransform iceType valueType summary)
        | none => .error ("GetStats: type for column '" ++ text columnName ++ "' is not found")
      else if isTemporal field.transform then getStatsFromTemporalTransform summary field.transform valueType
      else .ok none
    | _, _ => .error "GetStats: invalid position"

end ManifestFileStatsGetter

/-! ### The manifests -/

def isAllowedTransform (transform : Bytes) : Bool :=
  transform = bytes "identity" || ManifestFileStatsGetter.isTemporal transform

def fieldIdToName (schema : Schema) : OrdMap Int Bytes :=
  schema.columns.foldl (fun names column => names.insert column.fieldId column.name) ∅

def nameToTypeOf (schema : Schema) : OrdMap Bytes IceType :=
  schema.columns.foldl (fun types column => types.insert column.name column.type) ∅

/-- The specification with an id, the last one when several have it. -/
def specById (partitionSpecs : List PartitionSpec) (specId : Int) : Option PartitionSpec :=
  (partitionSpecs.foldl (fun specs spec => specs.insert spec.specId spec) (∅ : OrdMap Int PartitionSpec)).find? specId

/-- The positions of the partition fields by the names of their source columns. -/
def nameToPositionOf (schema : Schema) (spec : PartitionSpec) : Except String (OrdMap Bytes Nat) :=
  spec.fields.zipIdx.foldlM (fun positions (field, i) =>
    match (fieldIdToName schema).find? field.sourceId with
    | some name => .ok (positions.insert name i)
    | none => .error "FilterManifests: partition source id is not found") ∅

/-- The getter that `FilterManifests` makes for a manifest, if all transforms are allowed. -/
def manifestStatsGetter (schema : Schema) (partitionSpecs : List PartitionSpec) (manifest : ManifestFile) :
    Except String (Option ManifestFileStatsGetter) :=
  match specById partitionSpecs manifest.partitionSpecId.toInt with
  | none => .error "FilterManifests: partition spec id is not found"
  | some spec =>
    if spec.fields.all (fun field => isAllowedTransform field.transform) then do
      let nameToPosition ← nameToPositionOf schema spec
      return some { nameToType := nameToTypeOf schema, nameToPosition, partitions := manifest.partitions, spec }
    else .ok none

/-- `FilterManifests`: which manifests can be skipped. -/
def filterManifests (applyFilter : ThrowingStatsGetter → Except String MatchedRows) (schema : Schema)
    (partitionSpecs : List PartitionSpec) (manifestMetadatas : List ManifestFile) : Except String (List Bool) :=
  manifestMetadatas.mapM (fun manifest => do
    let getter ← manifestStatsGetter schema partitionSpecs manifest
    match getter with
    | none => return false
    | some getter => do
      let matched ← applyFilter getter.getStats
      return matched = .none)

end IcebergCxx
