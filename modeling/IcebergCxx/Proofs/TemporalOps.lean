import IcebergCxx.TemporalOps
import IcebergCxx.StatsFilter

/-!
# Days, times of day and comparisons

Three functions of the row filter tell the day of a timestamp: a division that truncates, a division
that is corrected below zero, and the time of day, which is counted from the floor. They agree from
1970 on. A date is compared with a timestamp through its product with the microseconds of a day,
which does not fit in 64 bits for most dates.
-/

namespace IcebergCxx.Proofs

open Lib TemporalOps

/-! ### Truncating and flooring division -/

lemma tdiv_succ_sub_one {t u : Int} (hu : 0 < u) (ht : t < 0) : (t + 1).tdiv u - 1 = t / u := by
  obtain ⟨m, rfl⟩ := Int.eq_negSucc_of_lt_zero ht
  have hsucc : Int.negSucc m + 1 = -(m : Int) := by omega
  rw [hsucc, Int.neg_tdiv, Int.tdiv_eq_ediv_of_nonneg (by omega), Int.negSucc_ediv m hu]
  change -((m : Int) / u) - 1 = -((m : Int) / u + 1)
  omega

/-- The remainder, moved up when it is negative. -/
lemma tmod_corrected {t u : Int} (hu : 0 < u) : (if t.tmod u < 0 then t.tmod u + u else t.tmod u) = t % u := by
  have hlower := Int.emod_nonneg t hu.ne'
  have hupper := Int.emod_lt_of_pos t hu
  rw [Int.tmod_eq_emod]
  by_cases h : 0 ≤ t ∨ u ∣ t
  · simp only [if_pos h]
    split_ifs <;> omega
  · simp only [if_neg h]
    have hne : t % u ≠ 0 := fun h0 => h (.inr (Int.dvd_of_emod_eq_zero h0))
    split_ifs <;> omega

lemma tdiv_eq_floor_iff {t u : Int} (hu : 0 < u) : t.tdiv u = t / u ↔ 0 ≤ t ∨ u ∣ t := by
  rw [Int.tdiv_eq_ediv, Int.sign_eq_one_of_pos hu]
  split_ifs with h <;> simp [h]

/-- A wrapped value differs from the exact one by a multiple of `2^64`. -/
lemma wrapInt64_spec (x : Int) : ∃ k, wrapInt64 x = x - 18446744073709551616 * k ∧
    -9223372036854775808 ≤ wrapInt64 x ∧ wrapInt64 x ≤ 9223372036854775807 := by
  have hpow : ((2 ^ 64 : Nat) : Int) = 18446744073709551616 := by norm_num
  rw [wrapInt64, Int.bmod_def, hpow]
  split_ifs
  · exact ⟨x / 18446744073709551616, by omega⟩
  · exact ⟨x / 18446744073709551616 + 1, by omega⟩

lemma wrapInt64_sub_wrapInt64 (x y : Int) : wrapInt64 (x - wrapInt64 y) = wrapInt64 (x - y) := by
  unfold wrapInt64
  exact Int.sub_bmod_bmod

lemma wrapInt64_add_wrapInt64 (x y : Int) : wrapInt64 (wrapInt64 x + y) = wrapInt64 (x + y) := by
  unfold wrapInt64
  exact Int.bmod_add_bmod

lemma inInt64_iff (x : Int) : InInt64 x ↔ -9223372036854775808 ≤ x ∧ x ≤ 9223372036854775807 := by
  unfold InInt64 int64Min int64Max
  norm_num

lemma signedInt64_bounds (t : SignedInt 64) : -9223372036854775808 ≤ t.val ∧ t.val ≤ 9223372036854775807 := by
  have := t.property
  norm_num at this
  omega

lemma signedInt32_bounds (d : SignedInt 32) : -2147483648 ≤ d.val ∧ d.val ≤ 2147483647 := by
  have := d.property
  norm_num at this
  omega

lemma microsInDay_eq : microsInDay = 86400000000 := rfl

lemma microsInHour_eq : microsInHour = 3600000000 := rfl

lemma microsInMinute_eq : microsInMinute = 60000000 := rfl

lemma microsInSecond_eq : microsInSecond = 1000000 := rfl

lemma microsInMilli_eq : microsInMilli = 1000 := rfl

/-! ### Fields of a timestamp -/

lemma dateTruncFixedUnit_eq {u t : Int} (hu : 0 < u) (h : InInt64 (t / u * u)) :
    dateTruncFixedUnit u t = t / u * u := by
  unfold dateTruncFixedUnit
  split_ifs with ht
  · rw [tdiv_succ_sub_one hu ht, wrapInt64_of_inInt64 h]
  · rw [Int.tdiv_eq_ediv_of_nonneg (by omega), wrapInt64_of_inInt64 h]

/-- The time of day is counted from midnight, also when midnight itself is not representable. -/
lemma timeOfDay_eq (t : Int) : timeOfDay t = t % microsInDay := by
  rw [timeOfDay, wrapInt64_sub_wrapInt64, floorDays, microsInDay_eq, wrapInt64_of_inInt64]
  · omega
  · rw [inInt64_iff]
    omega

lemma extractHour_eq (t : Int) : extractHour t = t % microsInDay / microsInHour := by
  rw [extractHour, tmHour, timeOfDay_eq, microsInDay_eq, Int.tdiv_eq_ediv_of_nonneg (by omega)]

lemma extractMinute_eq (t : Int) : extractMinute t = t % microsInDay % microsInHour / microsInMinute := by
  rw [extractMinute, tmMin, timeOfDay_eq, microsInDay_eq, Int.tmod_eq_emod_of_nonneg (by omega), microsInHour_eq,
    Int.tdiv_eq_ediv_of_nonneg (by omega)]

lemma extractMicroseconds_eq (t : Int) : extractMicroseconds t = t % microsInMinute := by
  unfold extractMicroseconds
  simp only [tmod_corrected (show 0 < microsInMinute by decide)]
  rw [microsInMinute_eq, microsInSecond_eq, Int.tdiv_eq_ediv_of_nonneg (by omega),
    Int.tmod_eq_emod_of_nonneg (by omega)]
  omega

/-- A timestamp is the midnight before it, its hours, its minutes and the microseconds within its
minute; the truncations to smaller units keep the larger fields. -/
theorem timestamp_eq_fields (t : SignedInt 64) (hday : InInt64 (t.val / microsInDay * microsInDay)) :
    t.val = dateTruncDay t.val + extractHour t.val * 3600000000 + extractMinute t.val * 60000000 +
        extractMicroseconds t.val ∧
      (0 ≤ extractHour t.val ∧ extractHour t.val < 24) ∧
      (0 ≤ extractMinute t.val ∧ extractMinute t.val < 60) ∧
      (0 ≤ extractMicroseconds t.val ∧ extractMicroseconds t.val < 60000000) ∧
      dateTruncHour t.val = dateTruncDay t.val + extractHour t.val * 3600000000 ∧
      dateTruncMinute t.val = dateTruncHour t.val + extractMinute t.val * 60000000 ∧
      dateTruncSecond t.val = dateTruncMinute t.val + extractMicroseconds t.val / 1000000 * 1000000 ∧
      dateTruncMilliseconds t.val = dateTruncMinute t.val + extractMicroseconds t.val / 1000 * 1000 := by
  have ht := signedInt64_bounds t
  -- Midnight is representable, so the start of every smaller unit is.
  have hunit : ∀ u, 0 < u → t.val / microsInDay * microsInDay ≤ t.val / u * u →
      dateTruncFixedUnit u t.val = t.val / u * u := by
    intro u hu hge
    apply dateTruncFixedUnit_eq hu
    have hself := Int.ediv_mul_le t.val hu.ne'
    rw [inInt64_iff] at hday ⊢
    omega
  have hmidnight : dateTruncDay t.val = t.val / microsInDay * microsInDay := hunit microsInDay (by decide) le_rfl
  rw [microsInDay_eq] at hunit hmidnight
  have hhour : dateTruncHour t.val = t.val / 3600000000 * 3600000000 := hunit 3600000000 (by decide) (by omega)
  have hminute : dateTruncMinute t.val = t.val / 60000000 * 60000000 := hunit 60000000 (by decide) (by omega)
  have hsecond : dateTruncSecond t.val = t.val / 1000000 * 1000000 := hunit 1000000 (by decide) (by omega)
  have hmilli : dateTruncMilliseconds t.val = t.val / 1000 * 1000 := hunit 1000 (by decide) (by omega)
  rw [hmidnight, hhour, hminute, hsecond, hmilli, extractHour_eq, extractMinute_eq, extractMicroseconds_eq,
    microsInDay_eq, microsInHour_eq, microsInMinute_eq]
  refine ⟨?_, ?_, ?_, ?_, ?_, ?_, ?_, ?_⟩ <;> omega

/-- One microsecond before 1970. -/
theorem timestamp_eq_fields_beforeEpoch :
    InInt64 ((-1) / microsInDay * microsInDay) ∧
      (-1 : Int) = dateTruncDay (-1) + extractHour (-1) * 3600000000 + extractMinute (-1) * 60000000 +
        extractMicroseconds (-1) :=
  ⟨by decide, (timestamp_eq_fields ⟨-1, by decide⟩ (by decide)).1⟩

/-! ### The day of a timestamp -/

lemma castDateFromTimestamp_eq (t : SignedInt 64) : castDateFromTimestamp t.val = t.val.tdiv microsInDay := by
  have ht := signedInt64_bounds t
  have hbound : -106751992 ≤ t.val.tdiv microsInDay ∧ t.val.tdiv microsInDay ≤ 106751992 := by
    rw [Int.tdiv_eq_ediv, microsInDay_eq, Int.sign_eq_one_of_pos (by decide)]
    split_ifs <;> omega
  unfold castDateFromTimestamp wrapInt32
  apply Int.bmod_eq_of_le
  · norm_num
    omega
  · norm_num
    omega

lemma greaterThanDateTimestamp_iff (d t : Int) : greaterThanDateTimestamp d t = true ↔ t < wrapInt64 (d * microsInDay) :=
  decide_eq_true_iff

/-- What a cast to a date should be: the day of the timestamp, as the truncation and the comparisons
with a date `d` see it. -/
structure CastAgrees (t d : Int) : Prop where
  day : castDateFromTimestamp t * microsInDay ≤ t ∧ t < (castDateFromTimestamp t + 1) * microsInDay
  truncation : InInt64 (t / microsInDay * microsInDay) → castDateFromTimestamp t * microsInDay = dateTruncDay t
  equal : InInt64 (t / microsInDay * microsInDay) →
    equalDateTimestamp (castDateFromTimestamp t) (dateTruncDay t) = true
  greater : castDateFromTimestamp t < d → greaterThanDateTimestamp d t = true

/-- The cast is to the right day from 1970 on and at every midnight; a later date compares as greater
unless its product with the microseconds of a day wraps around to at most the timestamp. -/
theorem castAgrees_iff (t : SignedInt 64) (d : SignedInt 32) :
    CastAgrees t.val d.val ↔
      (0 ≤ t.val ∨ microsInDay ∣ t.val) ∧ (d.val * microsInDay < 2 ^ 63 ∨ t.val < wrapInt64 (d.val * microsInDay)) := by
  have ht := signedInt64_bounds t
  have hcast : castDateFromTimestamp t.val = t.val / microsInDay ↔ 0 ≤ t.val ∨ microsInDay ∣ t.val := by
    rw [castDateFromTimestamp_eq]
    exact tdiv_eq_floor_iff (by decide)
  constructor
  · intro h
    have hday := h.day
    rw [microsInDay_eq] at hday
    have hfloor : castDateFromTimestamp t.val = t.val / microsInDay := by
      rw [microsInDay_eq]
      omega
    refine ⟨hcast.mp hfloor, ?_⟩
    by_contra hwraps
    push Not at hwraps
    have hlater : castDateFromTimestamp t.val < d.val := by
      rw [microsInDay_eq] at hwraps
      omega
    have hgreater := (greaterThanDateTimestamp_iff _ _).mp (h.greater hlater)
    omega
  · rintro ⟨hright, hwraps⟩
    have hfloor := hcast.mpr hright
    have htrunc : InInt64 (t.val / microsInDay * microsInDay) →
        dateTruncDay t.val = t.val / microsInDay * microsInDay :=
      dateTruncFixedUnit_eq (by decide)
    constructor
    · rw [hfloor, microsInDay_eq]
      omega
    · intro hin
      rw [hfloor, htrunc hin]
    · intro hin
      rw [hfloor, htrunc hin, equalDateTimestamp, dateMicros, wrapInt64_of_inInt64 hin]
      exact decide_eq_true rfl
    · intro hlater
      rw [hfloor] at hlater
      rw [greaterThanDateTimestamp_iff]
      rcases hwraps with hfits | hwraps
      · rw [microsInDay_eq] at hlater hfits ⊢
        rw [wrapInt64_of_inInt64]
        · omega
        · rw [inInt64_iff]
          omega
      · exact hwraps

/-- One microsecond before 1970 is cast to 1970-01-01. -/
theorem not_castAgrees_beforeEpoch : ¬∀ (t : SignedInt 64) (d : SignedInt 32), CastAgrees t.val d.val := by
  intro h
  have hday := (h ⟨-1, by decide⟩ ⟨0, by decide⟩).day
  exact absurd hday (by decide)

/-! ### Comparisons of a date and a timestamp -/

/-- The twelve comparisons are those of the exact instants. -/
structure ComparesExactly (d t : Int) : Prop where
  lessThan : lessThanDateTimestamp d t = decide (d * microsInDay < t)
  lessThanOrEqualTo : lessThanOrEqualToDateTimestamp d t = decide (d * microsInDay ≤ t)
  greaterThan : greaterThanDateTimestamp d t = decide (d * microsInDay > t)
  greaterThanOrEqualTo : greaterThanOrEqualToDateTimestamp d t = decide (d * microsInDay ≥ t)
  equal : equalDateTimestamp d t = decide (d * microsInDay = t)
  notEqual : notEqualDateTimestamp d t = decide (d * microsInDay ≠ t)
  lessThan' : lessThanTimestampDate t d = decide (t < d * microsInDay)
  lessThanOrEqualTo' : lessThanOrEqualToTimestampDate t d = decide (t ≤ d * microsInDay)
  greaterThan' : greaterThanTimestampDate t d = decide (t > d * microsInDay)
  greaterThanOrEqualTo' : greaterThanOrEqualToTimestampDate t d = decide (t ≥ d * microsInDay)
  equal' : equalTimestampDate t d = decide (t = d * microsInDay)
  notEqual' : notEqualTimestampDate t d = decide (t ≠ d * microsInDay)

/-- Exactly one of `<`, `=` and `>` holds, the other three follow from them, and each comparison
mirrors the one with its arguments swapped. -/
structure ComparesConsistently (d t : Int) : Prop where
  one : (lessThanDateTimestamp d t, equalDateTimestamp d t, greaterThanDateTimestamp d t) ∈
    [(true, false, false), (false, true, false), (false, false, true)]
  lessThanOrEqualTo : lessThanOrEqualToDateTimestamp d t = (lessThanDateTimestamp d t || equalDateTimestamp d t)
  greaterThanOrEqualTo :
    greaterThanOrEqualToDateTimestamp d t = (greaterThanDateTimestamp d t || equalDateTimestamp d t)
  notEqual : notEqualDateTimestamp d t = !equalDateTimestamp d t
  mirror_lessThan : lessThanDateTimestamp d t = greaterThanTimestampDate t d
  mirror_lessThanOrEqualTo : lessThanOrEqualToDateTimestamp d t = greaterThanOrEqualToTimestampDate t d
  mirror_greaterThan : greaterThanDateTimestamp d t = lessThanTimestampDate t d
  mirror_greaterThanOrEqualTo : greaterThanOrEqualToDateTimestamp d t = lessThanOrEqualToTimestampDate t d
  mirror_equal : equalDateTimestamp d t = equalTimestampDate t d
  mirror_notEqual : notEqualDateTimestamp d t = notEqualTimestampDate t d

/-- What the cast of an interval of dates tells about a date of it, the comparisons tell too. -/
structure AgreesWithCast (stats : MinMaxStats (SignedInt 32)) (d t : Int) : Prop where
  lessThan : (evaluateCastDateTimestamp stats).max.val < t → lessThanDateTimestamp d t = true
  lessThanOrEqualTo : (evaluateCastDateTimestamp stats).max.val ≤ t → lessThanOrEqualToDateTimestamp d t = true
  greaterThan : t < (evaluateCastDateTimestamp stats).min.val → greaterThanDateTimestamp d t = true
  greaterThanOrEqualTo : t ≤ (evaluateCastDateTimestamp stats).min.val → greaterThanOrEqualToDateTimestamp d t = true

/-- The product fits in 64 bits, or wraps around to the same side of the timestamp. -/
def SameSide (d t : Int) : Prop :=
  InInt64 (d * microsInDay) ∨ (0 < d ∧ t < wrapInt64 (d * microsInDay)) ∨ (d < 0 ∧ wrapInt64 (d * microsInDay) < t)

lemma comparesExactly_iff_sides (d t : Int) :
    ComparesExactly d t ↔
      (wrapInt64 (d * microsInDay) < t ↔ d * microsInDay < t) ∧ (t < wrapInt64 (d * microsInDay) ↔ t < d * microsInDay) := by
  constructor
  · intro h
    exact ⟨decide_eq_decide.mp h.lessThan, decide_eq_decide.mp h.lessThan'⟩
  · rintro ⟨hless, hgreater⟩
    constructor <;> apply decide_eq_decide.mpr <;> simp only [dateMicros] <;> omega

lemma comparesExactly_iff (d : SignedInt 32) (t : SignedInt 64) : ComparesExactly d.val t.val ↔ SameSide d.val t.val := by
  have ht := signedInt64_bounds t
  obtain ⟨k, hwrap, hlower, hupper⟩ := wrapInt64_spec (d.val * microsInDay)
  rw [comparesExactly_iff_sides, SameSide, inInt64_iff]
  by_cases hfits : InInt64 (d.val * microsInDay)
  · rw [wrapInt64_of_inInt64 hfits]
    rw [inInt64_iff] at hfits
    omega
  · rw [inInt64_iff] at hfits
    rw [microsInDay_eq] at *
    omega

/-- A date has every comparison right when its midnight fits in 64 bits, and only then. -/
lemma forall_comparesExactly_iff (d : SignedInt 32) :
    (∀ t : SignedInt 64, ComparesExactly d.val t.val) ↔ InInt64 (d.val * microsInDay) := by
  obtain ⟨k, hwrap, hlower, hupper⟩ := wrapInt64_spec (d.val * microsInDay)
  constructor
  · intro h
    have hmin := (comparesExactly_iff d _).mp (h ⟨-9223372036854775808, by decide⟩)
    have hmax := (comparesExactly_iff d _).mp (h ⟨9223372036854775807, by decide⟩)
    rcases hmin with hfits | ⟨hpositive, -⟩ | ⟨-, hless⟩
    · exact hfits
    · rcases hmax with hfits | ⟨-, hgreater⟩ | ⟨hnegative, -⟩
      · exact hfits
      · exact absurd hgreater (not_lt.mpr hupper)
      · omega
    · exact absurd hless (not_lt.mpr hlower)
  · intro h t
    exact (comparesExactly_iff d t).mpr (.inl h)

lemma comparesConsistently (d t : Int) : ComparesConsistently d t := by
  constructor
  · rcases lt_trichotomy (dateMicros d) t with h | h | h
    · simp [lessThanDateTimestamp, equalDateTimestamp, greaterThanDateTimestamp, h, h.ne, h.le]
    · simp [lessThanDateTimestamp, equalDateTimestamp, greaterThanDateTimestamp, h]
    · simp [lessThanDateTimestamp, equalDateTimestamp, greaterThanDateTimestamp, h, h.ne', h.le]
  · rw [lessThanOrEqualToDateTimestamp, lessThanDateTimestamp, equalDateTimestamp, ← Bool.decide_or]
    exact decide_eq_decide.mpr le_iff_lt_or_eq
  · rw [greaterThanOrEqualToDateTimestamp, greaterThanDateTimestamp, equalDateTimestamp, ← Bool.decide_or]
    apply decide_eq_decide.mpr
    omega
  · exact decide_not
  · rfl
  · rfl
  · rfl
  · rfl
  · exact decide_eq_decide.mpr eq_comm
  · exact decide_eq_decide.mpr ne_comm

/-! ### The cast of an interval -/

/-- An interval from the least date on whose upper end passes the check: the check of its lower end
takes the absolute value of the least 32-bit integer. -/
def CastWraps (stats : MinMaxStats (SignedInt 32)) : Prop :=
  stats.min.val = -2147483648 ∧ (stats.max.val = -2147483648 ∨ |stats.max.val| ≤ maxSupportedDate)

/-- The wrapped midnight of the least date. -/
def leastDateMicros : Int := -1075146450104483840

lemma wrapInt64_leastDate : wrapInt64 (-2147483648 * microsInDay) = leastDateMicros := by decide

lemma abs_check_iff (x : SignedInt 32) :
    (toInt32 |x.val|).val ≤ maxSupportedDate ↔ x.val = -2147483648 ∨ |x.val| ≤ maxSupportedDate := by
  have hx := signedInt32_bounds x
  have hpow : ((2 ^ 32 : Nat) : Int) = 4294967296 := by norm_num
  unfold toInt32 maxSupportedDate
  simp only [Int.bmod_def, hpow]
  rcases abs_cases x.val with ⟨habs, -⟩ | ⟨habs, -⟩ <;> rw [habs] <;> split_ifs <;> omega

lemma midnight_of_supported {x : Int} (h : |x| ≤ maxSupportedDate) : (toInt64 (x * microsInDay)).val = x * microsInDay := by
  have habs := abs_le.mp h
  unfold maxSupportedDate at habs
  apply wrapInt64_of_inInt64
  rw [inInt64_iff, microsInDay_eq]
  omega

/-- The interval that a cast makes of an interval of dates. -/
lemma evaluateCastDateTimestamp_cases {stats : MinMaxStats (SignedInt 32)} (hle : stats.min.val ≤ stats.max.val) :
    ((evaluateCastDateTimestamp stats).min.val = -9223372036854775808 ∧
        (evaluateCastDateTimestamp stats).max.val = 9223372036854775807 ∧ ¬CastWraps stats) ∨
      ((evaluateCastDateTimestamp stats).min.val = stats.min.val * microsInDay ∧
        (evaluateCastDateTimestamp stats).max.val = stats.max.val * microsInDay ∧
        |stats.min.val| ≤ maxSupportedDate ∧ |stats.max.val| ≤ maxSupportedDate ∧ ¬CastWraps stats) ∨
      ((evaluateCastDateTimestamp stats).min.val = leastDateMicros ∧
        (evaluateCastDateTimestamp stats).max.val = wrapInt64 (stats.max.val * microsInDay) ∧ CastWraps stats) := by
  have hmin := signedInt32_bounds stats.min
  unfold evaluateCastDateTimestamp
  split_ifs with h
  · rw [abs_check_iff, abs_check_iff] at h
    obtain ⟨hminCheck, hmaxCheck⟩ := h
    by_cases hleast : stats.min.val = -2147483648
    · refine .inr (.inr ⟨?_, rfl, hleast, hmaxCheck⟩)
      simp only [hleast]
      exact wrapInt64_leastDate
    · have hlow := hminCheck.resolve_left hleast
      have hhigh := hmaxCheck.resolve_left (by omega)
      exact .inr (.inl ⟨midnight_of_supported hlow, midnight_of_supported hhigh, hlow, hhigh, fun h => hleast h.1⟩)
  · rw [abs_check_iff, abs_check_iff] at h
    refine .inl ⟨rfl, rfl, ?_⟩
    rintro ⟨h1, h2⟩
    exact h ⟨.inl h1, h2⟩

/-- An exact comparison of a date agrees with an interval when its midnight lies on the right sides of
the interval's bounds. -/
lemma agreesWithCast_iff_sides {stats : MinMaxStats (SignedInt 32)} {d t : Int} (hexact : ComparesExactly d t) :
    AgreesWithCast stats d t ↔
      ((evaluateCastDateTimestamp stats).max.val < t → d * microsInDay < t) ∧
      ((evaluateCastDateTimestamp stats).max.val ≤ t → d * microsInDay ≤ t) ∧
      (t < (evaluateCastDateTimestamp stats).min.val → t < d * microsInDay) ∧
      (t ≤ (evaluateCastDateTimestamp stats).min.val → t ≤ d * microsInDay) := by
  have hless := hexact.lessThan
  have hlessEqual := hexact.lessThanOrEqualTo
  have hgreater := hexact.greaterThan
  have hgreaterEqual := hexact.greaterThanOrEqualTo
  constructor
  · rintro ⟨h1, h2, h3, h4⟩
    rw [hless, decide_eq_true_eq] at h1
    rw [hlessEqual, decide_eq_true_eq] at h2
    rw [hgreater, decide_eq_true_eq] at h3
    rw [hgreaterEqual, decide_eq_true_eq] at h4
    exact ⟨h1, h2, h3, h4⟩
  · rintro ⟨h1, h2, h3, h4⟩
    constructor
    · rw [hless, decide_eq_true_eq]
      exact h1
    · rw [hlessEqual, decide_eq_true_eq]
      exact h2
    · rw [hgreater, decide_eq_true_eq]
      exact h3
    · rw [hgreaterEqual, decide_eq_true_eq]
      exact h4

/-- Dates compare as the cast of their interval tells, unless the interval's own bound has wrapped
around past the timestamp. -/
lemma agreesWithCast_iff {stats : MinMaxStats (SignedInt 32)} {d : SignedInt 32} {t : SignedInt 64}
    (hmin : stats.min.val ≤ d.val) (hmax : d.val ≤ stats.max.val) (hexact : ComparesExactly d.val t.val) :
    AgreesWithCast stats d.val t.val ↔
      (CastWraps stats → (t.val < leastDateMicros → t.val < d.val * microsInDay) ∧
        (t.val ≤ leastDateMicros → t.val ≤ d.val * microsInDay)) := by
  have ht := signedInt64_bounds t
  have hd := signedInt32_bounds d
  rw [agreesWithCast_iff_sides hexact]
  obtain ⟨hless, hgreater⟩ := (comparesExactly_iff_sides _ _).mp hexact
  obtain ⟨k, -, hlower, hupper⟩ := wrapInt64_spec (d.val * microsInDay)
  rcases evaluateCastDateTimestamp_cases (hmin.trans hmax) with ⟨h1, h2, hwraps⟩ | ⟨h1, h2, -, -, hwraps⟩ | ⟨h1, h2, hwraps⟩
  · rw [h1, h2]
    simp only [hwraps, false_implies, iff_true]
    omega
  · rw [h1, h2, microsInDay_eq]
    simp only [hwraps, false_implies, iff_true]
    omega
  · rw [h1, h2]
    simp only [hwraps, true_implies]
    obtain ⟨-, hleast | hsupported⟩ := hwraps
    · have hsame : stats.max.val = d.val := by omega
      rw [hsame]
      omega
    · have hmidnight : wrapInt64 (stats.max.val * microsInDay) = stats.max.val * microsInDay :=
        midnight_of_supported hsupported
      rw [hmidnight, microsInDay_eq]
      omega

/-- The comparisons of a date and a timestamp are exact, consistent, and agree with the cast of every
interval of dates, when the date's midnight fits in 64 bits or wraps around to the same side of the
timestamp, and the bound of the interval has not wrapped around itself. A date compares rightly with
every timestamp only within 106751991 days of 1970. -/
theorem compares_iff (d : SignedInt 32) :
    (∀ (t : SignedInt 64) (stats : MinMaxStats (SignedInt 32)), stats.min.val ≤ d.val → d.val ≤ stats.max.val →
      (ComparesExactly d.val t.val ∧ ComparesConsistently d.val t.val ∧ AgreesWithCast stats d.val t.val ↔
        SameSide d.val t.val ∧
          (CastWraps stats → (t.val < leastDateMicros → t.val < d.val * microsInDay) ∧
            (t.val ≤ leastDateMicros → t.val ≤ d.val * microsInDay)))) ∧
      ((∀ t : SignedInt 64, ComparesExactly d.val t.val) ↔ |d.val| ≤ 106751991) := by
  constructor
  · intro t stats hmin hmax
    rw [← comparesExactly_iff]
    constructor
    · rintro ⟨hexact, -, hagrees⟩
      exact ⟨hexact, (agreesWithCast_iff hmin hmax hexact).mp hagrees⟩
    · rintro ⟨hexact, hwraps⟩
      exact ⟨hexact, comparesConsistently _ _, (agreesWithCast_iff hmin hmax hexact).mpr hwraps⟩
  · rw [forall_comparesExactly_iff, inInt64_iff, microsInDay_eq, abs_le]
    omega

/-- The date 1970-01-01, one microsecond later. -/
theorem compares_epoch :
    ComparesExactly 0 1 ∧ ComparesConsistently 0 1 ∧ AgreesWithCast ⟨⟨0, by decide⟩, ⟨0, by decide⟩⟩ 0 1 :=
  ((compares_iff ⟨0, by decide⟩).1 ⟨1, by decide⟩ ⟨⟨0, by decide⟩, ⟨0, by decide⟩⟩ le_rfl le_rfl).mpr
    ⟨.inl (by decide), fun h => absurd h.1 (by decide)⟩

/-- The midnight of the date 106751992 does not fit in 64 bits; it compares as before 1970. -/
theorem not_comparesExactly_of_overflow :
    ¬∀ (d : SignedInt 32) (t : SignedInt 64), ComparesExactly d.val t.val := by
  intro h
  have hgreater := (h ⟨106751992, by decide⟩ ⟨0, by decide⟩).greaterThan
  exact absurd hgreater (by decide)

end IcebergCxx.Proofs
