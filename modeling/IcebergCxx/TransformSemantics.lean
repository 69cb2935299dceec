import IcebergCxx.ManifestSkipping

/-!
# The meaning of partition transforms

A temporal transform counts whole units since 1970-01-01: the value of an instant is the unit whose
interval contains it. A date is its midnight, and a timestamptz is partitioned by a timestamp at
most one day away. `Between` says that the value of a column lies between the bounds of a partition
summary, and `InManifest` that a row can be in a file of a manifest with these summaries.
-/

namespace IcebergCxx

open Lib

inductive TemporalTransform
  | year | month | day | hour
  deriving DecidableEq

namespace TemporalTransform

def ofText (transform : Bytes) : Option TemporalTransform :=
  if transform = bytes "year" then some .year
  else if transform = bytes "month" then some .month
  else if transform = bytes "day" then some .day
  else if transform = bytes "hour" then some .hour
  else none

/-- The first instant of a unit. -/
def start : TemporalTransform → Int → Int
  | .year, u => yearStart u * microsInDay
  | .month, u => monthStart u * microsInDay
  | .day, u => u * microsInDay
  | .hour, u => u * microsPerHour

/-- The instant lies in the unit. -/
def HasUnit (t : TemporalTransform) (u instant : Int) : Prop := t.start u ≤ instant ∧ instant < t.start (u + 1)

end TemporalTransform

/-- The value has the transform value `u`. -/
def HasTransformValue (t : TemporalTransform) (u : Int) : Scalar → Prop
  | ⟨.date, x⟩ => t.HasUnit u (Subtype.val x * microsInDay)
  | ⟨.timestamp, x⟩ => t.HasUnit u (Subtype.val x)
  | ⟨.timestamptz, x⟩ => ∃ y : SignedInt 64, |Subtype.val x - y.val| ≤ microsInDay ∧ t.HasUnit u y.val
  | _ => False

/-- A signed integer in two's complement, least significant byte first. -/
def signedLe (width : Nat) (b : Bytes) : Option Int :=
  if b.length = width then
    some (if 2 * ofLeBytes b < 256 ^ width then (ofLeBytes b : Int) else ofLeBytes b - 256 ^ width)
  else none

def IntBetween (width : Nat) (summary : PartitionFieldSummary) (x : Int) : Prop :=
  ∃ lo hi, signedLe width summary.lowerBound = some lo ∧ signedLe width summary.upperBound = some hi ∧ lo ≤ x ∧ x ≤ hi

/-- The value of a column of the given type lies between bounds of its own values. -/
def IdentityBetween (iceType : IceType) (summary : PartitionFieldSummary) : Scalar → Prop
  | ⟨.bool, x⟩ => iceType = .boolean ∧ ∃ lo hi : Byte, summary.lowerBound = [lo] ∧ summary.upperBound = [hi] ∧
      (lo ≠ 0 → x = true) ∧ (hi = 0 → x = false)
  | ⟨.int2, x⟩ => iceType = .int ∧ IntBetween 4 summary (Subtype.val x)
  | ⟨.int4, x⟩ => iceType = .int ∧ IntBetween 4 summary (Subtype.val x)
  | ⟨.int8, x⟩ => iceType = .long ∧ IntBetween 8 summary (Subtype.val x)
  | ⟨.date, x⟩ => iceType = .date ∧ IntBetween 4 summary (Subtype.val x)
  | ⟨.time, x⟩ => iceType = .time ∧ IntBetween 8 summary (Subtype.val x)
  | ⟨.timestamp, x⟩ => iceType = .timestamp ∧ IntBetween 8 summary (Subtype.val x)
  | ⟨.timestamptz, x⟩ => iceType = .timestamptz ∧ IntBetween 8 summary (Subtype.val x)
  | ⟨.string, x⟩ => iceType = .string ∧ summary.lowerBound ≤ x ∧ x ≤ summary.upperBound
  | _ => False

/-- The transform value lies between bounds of counted units. -/
def TemporalBetween (t : TemporalTransform) (summary : PartitionFieldSummary) (v : Scalar) : Prop :=
  ∃ lo hi u, signedLe 4 summary.lowerBound = some lo ∧ signedLe 4 summary.upperBound = some hi ∧ lo ≤ u ∧ u ≤ hi ∧
    HasTransformValue t u v

/-- The transform value of a column's value lies between the bounds of the summary. -/
def Between (iceType : Option IceType) (transform : Bytes) (summary : PartitionFieldSummary) (v : Scalar) : Prop :=
  (transform = bytes "identity" ∧ ∃ type, iceType = some type ∧ IdentityBetween type summary v) ∨
    ∃ t, TemporalTransform.ofText transform = some t ∧ TemporalBetween t summary v

/-- Each value of the row that is not null lies between the bounds of every partition field made of
its column. -/
def InManifest (schema : Schema) (spec : PartitionSpec) (partitions : List PartitionFieldSummary)
    (row : Bytes → Option Scalar) : Prop :=
  ∀ (i : Nat) (field : PartitionField) (name : Bytes) (v : Scalar), spec.fields[i]? = some field →
    (fieldIdToName schema).find? field.sourceId = some name → row name = some v → ∃ summary, partitions[i]? = some summary ∧
      Between ((nameToTypeOf schema).find? name) field.transform summary v

end IcebergCxx
