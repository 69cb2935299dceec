import IcebergCxx.Proofs.Transforms
import IcebergCxx.Proofs.TemporalOps
import IcebergCxx.TransformSemantics

/-!
# The temporal transforms of the writer and of the reader

The reader takes a temporal partition value as a number of units since 1970. The writer stores a field
of the calendar instead, and for days the field of hours. The two are equal only in the first hours
and days of 1970.
-/

namespace IcebergCxx.Proofs

open Lib ParquetWrite ManifestFileStatsGetter

def temporalName : TemporalTransform → Bytes
  | .year => bytes "year"
  | .month => bytes "month"
  | .day => bytes "day"
  | .hour => bytes "hour"

/-- The value that the writer's transform with a name computes for a date. -/
def writtenValue (lib : TransformLibrary) (t : TemporalTransform) (millis : Int) : Except Failure ParquetWrite.Scalar := do
  let transform ← getTransform (temporalName t)
  transform.transform lib ⟨.date64, true, .inl millis⟩

/-- The range that the reader derives from a partition value contains the date. -/
def ReaderCovers : TemporalTransform → Int → Int → Prop
  | .hour, u, millis => ∃ lo hi, getMinMaxMicrosFromTemporal u u (bytes "hour") = .ok (lo, hi) ∧ lo ≤ millis * 1000 ∧
      millis * 1000 ≤ hi
  | t, u, millis => ∃ lo hi, getMinMaxDayFromTemporal u u (temporalName t) = .ok (some (lo, hi)) ∧
      lo ≤ millis / 86400000 ∧ millis / 86400000 ≤ hi

/-- The writer stores the number of whole units since 1970-01-01, and the reader's range for it contains
the date. -/
def WritesUnit (lib : TransformLibrary) (t : TemporalTransform) (millis : Int) : Prop :=
  ∃ u, writtenValue lib t millis = .ok (int32Scalar u) ∧ t.HasUnit u (millis * 1000) ∧ ReaderCovers t u millis

/-- The seconds that `gmtime` is called with. -/
def clockSeconds (millis : Int) : Int := Int.tdiv (wrapInt64 (millis * 1000000)) 1000000000

/-- The field of the calendar that is stored. -/
def storedField : TemporalTransform → Int → Int
  | .year, seconds => 1970 + yearOfDay (seconds / 86400)
  | .month, seconds => 1 + monthOfDay (seconds / 86400) % 12
  | .day, seconds => seconds % 86400 / 3600
  | .hour, seconds => seconds % 86400 / 3600

lemma writtenValue_eq (lib : TransformLibrary) (t : TemporalTransform) (millis : Int) :
    writtenValue lib t millis = .ok (int32Scalar (storedField t (clockSeconds millis))) := by
  cases t <;> rfl

lemma int32Scalar_inj {u v : Int} (h : int32Scalar u = int32Scalar v) : u = v := by
  unfold int32Scalar at h
  simpa using h

lemma clockSeconds_of_small {millis : Int} (h1 : 0 ≤ millis) (h2 : millis ≤ 9000000000000) :
    clockSeconds millis = millis / 1000 := by
  have hin : InInt64 (millis * 1000000) := by
    rw [inInt64_iff]
    omega
  rw [clockSeconds, wrapInt64_of_inInt64 hin, Int.tdiv_eq_ediv_of_nonneg (by omega)]
  omega

/-- The seconds differ from the exact ones by the wraps of the clock, and by rounding. -/
lemma clockSeconds_bounds (millis : Int) : ∃ k,
    1000000000 * clockSeconds millis - 1000000000 ≤ millis * 1000000 - 18446744073709551616 * k ∧
      millis * 1000000 - 18446744073709551616 * k ≤ 1000000000 * clockSeconds millis + 1000000000 := by
  obtain ⟨k, hk, -, -⟩ := wrapInt64_spec (millis * 1000000)
  refine ⟨k, ?_⟩
  rw [clockSeconds, hk, Int.tdiv_eq_ediv, Int.sign_eq_one_of_pos (by decide)]
  split_ifs <;> omega

/-- The stored year is never the number of years since 1970, also when the clock wraps around: the two
instants would be 1970 years apart, and the clock wraps after 584. -/
lemma not_hasUnit_year (millis : Int) :
    ¬TemporalTransform.year.HasUnit (storedField .year (clockSeconds millis)) (millis * 1000) := by
  rintro ⟨h1, h2⟩
  obtain ⟨k, hk1, hk2⟩ := clockSeconds_bounds millis
  obtain ⟨hd1, hd2⟩ := yearOfDay_spec (clockSeconds millis / 86400)
  have hl0 := yearStart_lower (yearOfDay (clockSeconds millis / 86400))
  have hu1 := yearStart_upper (yearOfDay (clockSeconds millis / 86400) + 1)
  have hlu := yearStart_lower (1970 + yearOfDay (clockSeconds millis / 86400))
  have huu := yearStart_upper (1970 + yearOfDay (clockSeconds millis / 86400) + 1)
  simp only [storedField, TemporalTransform.start, microsInDay_eq] at h1 h2
  -- The days between the two instants, by the calendar and by the clock.
  have hlower : 719000 ≤ millis / 86400000 - clockSeconds millis / 86400 := by omega
  have hupper : millis / 86400000 - clockSeconds millis / 86400 ≤ 720000 := by omega
  have hmore : 3 < k := by omega
  have hless : k < 4 := by omega
  omega

/-- A stored month is one of 1 to 12; the month that many after January 1970 is stored as the next one. -/
lemma not_hasUnit_month (millis : Int) :
    ¬TemporalTransform.month.HasUnit (storedField .month (clockSeconds millis)) (millis * 1000) := by
  rintro ⟨h1, h2⟩
  simp only [storedField, TemporalTransform.start, microsInDay_eq] at h1 h2
  have hfirst := monthStart_strictMono.monotone
    (show 1 ≤ 1 + monthOfDay (clockSeconds millis / 86400) % 12 by omega)
  have hlast := monthStart_strictMono.monotone
    (show 1 + monthOfDay (clockSeconds millis / 86400) % 12 + 1 ≤ 13 by omega)
  have hone : monthStart 1 = 31 := by decide
  have hthirteen : monthStart 13 = 396 := by decide
  have hseconds := @clockSeconds_of_small millis (by omega) (by omega)
  have hday : clockSeconds millis / 86400 = millis / 86400000 := by omega
  have hmonth := @monthOfDay_eq (clockSeconds millis / 86400) (1 + monthOfDay (clockSeconds millis / 86400) % 12)
    (by omega) (by omega)
  omega

/-- When the writer's value is the number of units: for a year or a month never, for an hour on
1970-01-01, and for a day in hour `d` of day `d`, as the hour is stored. -/
def StoredIsUnit : TemporalTransform → Int → Prop
  | .year, _ => False
  | .month, _ => False
  | .day, millis => 0 ≤ millis ∧ millis < 24 * 86400000 ∧ millis / 3600000 = 25 * (millis / 86400000)
  | .hour, millis => 0 ≤ millis ∧ millis < 86400000

lemma hasUnit_day_iff (millis : Int) :
    TemporalTransform.day.HasUnit (storedField .day (clockSeconds millis)) (millis * 1000) ↔ StoredIsUnit .day millis := by
  simp only [TemporalTransform.HasUnit, storedField, TemporalTransform.start, StoredIsUnit, microsInDay_eq]
  constructor
  · intro h
    have hseconds := @clockSeconds_of_small millis (by omega) (by omega)
    omega
  · intro h
    rw [clockSeconds_of_small h.1 (by omega)]
    omega

lemma hasUnit_hour_iff (millis : Int) :
    TemporalTransform.hour.HasUnit (storedField .hour (clockSeconds millis)) (millis * 1000) ↔ StoredIsUnit .hour millis := by
  have hhour : microsPerHour = 3600000000 := rfl
  simp only [TemporalTransform.HasUnit, storedField, TemporalTransform.start, StoredIsUnit, hhour]
  constructor
  · intro h
    omega
  · intro h
    rw [clockSeconds_of_small h.1 (by omega)]
    omega

lemma hoursToMicros_of_small {hours : Int} (h1 : 0 ≤ hours) (h2 : hours ≤ 24) :
    hoursToMicros hours = .ok (hours * 3600000000) := by
  have hmax : int64Max.tdiv microsPerHour = 2562047788 := by decide
  have hmin : int64Min.tdiv microsPerHour = -2562047788 := by decide
  have hrange : (hours ≤ int64Max.tdiv microsPerHour ∧ int64Min.tdiv microsPerHour ≤ hours) := by
    rw [hmax, hmin]
    omega
  simp only [hoursToMicros, hrange, and_self, decide_true, ensure_true, ok_bind]
  rfl

lemma readerCovers_of_hasUnit {t : TemporalTransform} {u millis : Int} (ht : t = .day ∨ t = .hour) (h1 : 0 ≤ u) (h2 : u < 24)
    (h : t.HasUnit u (millis * 1000)) : ReaderCovers t u millis := by
  rcases ht with rfl | rfl
  · simp only [TemporalTransform.HasUnit, TemporalTransform.start, microsInDay_eq] at h
    exact ⟨u, u, rfl, by omega, by omega⟩
  · have hhour : microsPerHour = 3600000000 := rfl
    simp only [TemporalTransform.HasUnit, TemporalTransform.start, hhour] at h
    refine ⟨u * 3600000000, (u + 1) * 3600000000 - 1, ?_, by omega, by omega⟩
    simp only [getMinMaxMicrosFromTemporal, if_true, hoursToMicros_of_small h1 (by omega),
      hoursToMicros_of_small (show 0 ≤ u + 1 by omega) (by omega), ok_bind]
    rfl

/-- The writer stores what the reader expects only in hour `d` of day `d` of 1970, for a day, and on the
first day of 1970, for an hour. -/
theorem writesUnit_iff (lib : TransformLibrary) (t : TemporalTransform) (millis : SignedInt 64) :
    WritesUnit lib t millis.val ↔ StoredIsUnit t millis.val := by
  have hstored : WritesUnit lib t millis.val ↔
      t.HasUnit (storedField t (clockSeconds millis.val)) (millis.val * 1000) ∧
        ReaderCovers t (storedField t (clockSeconds millis.val)) millis.val := by
    constructor
    · rintro ⟨u, hu, hunit, hcovers⟩
      rw [writtenValue_eq] at hu
      cases int32Scalar_inj (Except.ok.inj hu)
      exact ⟨hunit, hcovers⟩
    · rintro ⟨hunit, hcovers⟩
      exact ⟨_, writtenValue_eq lib t millis.val, hunit, hcovers⟩
  rw [hstored]
  cases t with
  | year => exact ⟨fun h => not_hasUnit_year _ h.1, False.elim⟩
  | month => exact ⟨fun h => not_hasUnit_month _ h.1, False.elim⟩
  | day =>
    rw [hasUnit_day_iff]
    refine ⟨fun h => h.1, fun h => ⟨h, readerCovers_of_hasUnit (.inl rfl) ?_ ?_ ((hasUnit_day_iff _).mpr h)⟩⟩
    · simp only [storedField]
      omega
    · simp only [storedField]
      omega
  | hour =>
    rw [hasUnit_hour_iff]
    refine ⟨fun h => h.1, fun h => ⟨h, readerCovers_of_hasUnit (.inr rfl) ?_ ?_ ((hasUnit_hour_iff _).mpr h)⟩⟩
    · simp only [storedField]
      omega
    · simp only [storedField]
      omega

/-- Nothing of what the writer takes from other libraries is used for a date. -/
def noTransformLibrary : TransformLibrary where
  useSmhasher := false
  murmurHash3 _ := toInt32 0
  computeStringHash _ := toInt64 0
  scalarToString scalar := scalar.value.elim (fun _ => []) id
  hashOther _ := toInt64 0
  truncateOther _ _ := .error .undefined

/-- 2024-01-01 is stored as the year 2024, which the reader takes as the year 3994. -/
theorem not_writesUnit_2024 :
    ¬∀ (lib : TransformLibrary) (t : TemporalTransform) (millis : SignedInt 64), WritesUnit lib t millis.val := by
  intro h
  obtain ⟨u, hu, hunit, -⟩ := h noTransformLibrary .year ⟨1704067200000, by decide⟩
  rw [writtenValue_eq] at hu
  cases int32Scalar_inj (Except.ok.inj hu)
  exact not_hasUnit_year _ hunit

end IcebergCxx.Proofs
