import IcebergCxx.Proofs.TemporalOps

/-!
# Truncation of timestamps

A truncated timestamp is the greatest start of a unit that is not after it. Units of months, weeks
and fixed length round down everywhere. Units of several years divide the year with truncation: before
the first such unit of the calendar they round up, unless the year is the first of its unit.
-/

namespace IcebergCxx.Proofs

open Lib TemporalOps

def calendarYear (t : Int) : Int := 1970 + yearOfDay (floorDays t)

/-! ### Time points as a day and a time of day -/

lemma days_bounds {days : Int} (h : SupportedYear (1970 + yearOfDay days)) : -12800000 ≤ days ∧ days ≤ 12800000 := by
  obtain ⟨h1, h2⟩ := yearOfDay_spec days
  have hlower := yearStart_lower (yearOfDay days)
  have hupper := yearStart_upper (yearOfDay days + 1)
  unfold SupportedYear at h
  omega

/-- A day and a time of day make a time point that has them. -/
lemma timePoint_eq {days tod : Int} (hdays : -13000000 ≤ days ∧ days ≤ 13000000) (htod : 0 ≤ tod ∧ tod < microsInDay) :
    timePoint days tod = days * microsInDay + tod := by
  rw [microsInDay_eq] at htod
  rw [timePoint, wrapInt64_add_wrapInt64, wrapInt64_of_inInt64]
  rw [inInt64_iff, microsInDay_eq]
  omega

lemma floorDays_add {days tod : Int} (htod : 0 ≤ tod ∧ tod < microsInDay) :
    floorDays (days * microsInDay + tod) = days := by
  rw [microsInDay_eq] at htod
  rw [floorDays, microsInDay_eq]
  omega

lemma timeOfDay_add {days tod : Int} (htod : 0 ≤ tod ∧ tod < microsInDay) :
    timeOfDay (days * microsInDay + tod) = tod := by
  rw [microsInDay_eq] at htod
  rw [timeOfDay_eq, microsInDay_eq]
  omega

lemma timeOfDay_bounds (t : Int) : 0 ≤ timeOfDay t ∧ timeOfDay t < microsInDay := by
  rw [timeOfDay_eq, microsInDay_eq]
  omega

lemma floorDays_timeOfDay (t : Int) : floorDays t * microsInDay + timeOfDay t = t := by
  rw [timeOfDay_eq, floorDays, microsInDay_eq]
  omega

lemma clearTimeOfDay_add {days tod : Int} (hdays : -13000000 ≤ days ∧ days ≤ 13000000)
    (htod : 0 ≤ tod ∧ tod < microsInDay) : clearTimeOfDay (days * microsInDay + tod) = days * microsInDay := by
  rw [clearTimeOfDay, timeOfDay_add htod, add_sub_cancel_right, wrapInt64_of_inInt64]
  rw [inInt64_iff, microsInDay_eq]
  omega

section

variable (date : DateLibrary)

lemma yearMonthDay_add {days tod : Int} (h : SupportedYear (1970 + yearOfDay days)) (htod : 0 ≤ tod ∧ tod < microsInDay) :
    yearMonthDay date (days * microsInDay + tod) = civilDate days := by
  rw [yearMonthDay, floorDays_add htod, date.yearMonthDay_eq days h]

lemma sysDays_supported {days : Int} (h : SupportedYear (1970 + yearOfDay days)) :
    date.sysDays (civilDate days) = days := by
  obtain ⟨h1, h2, h3, h4⟩ := civilDate_bounds days
  rw [date.sysDays_eq (civilDate days) h h1 h2 h3 h4, sysDays_civilDate]

lemma sysDays_firstOfMonth {m : Int} (h : SupportedYear (1970 + m / 12)) :
    date.sysDays ⟨1970 + m / 12, 1 + m % 12, 1⟩ = monthStart m := by
  rw [date.sysDays_eq ⟨1970 + m / 12, 1 + m % 12, 1⟩ h (by simp only; omega) (by simp only; omega) le_rfl (by simp only; omega),
    monthStart]

lemma addDays_add {days tod n : Int} (h : SupportedYear (1970 + yearOfDay days)) (htod : 0 ≤ tod ∧ tod < microsInDay)
    (hn : -13000000 ≤ days + n ∧ days + n ≤ 13000000) :
    addDays date (days * microsInDay + tod) n = (days + n) * microsInDay + tod := by
  rw [addDays, yearMonthDay_add date h htod, sysDays_supported date h, timeOfDay_add htod, timePoint_eq hn htod]

/-- Every month has a first day. -/
lemma didDaysOverflow_firstDay (year month : Int) (h1 : 1 ≤ month) (h2 : month ≤ 12) :
    didDaysOverflow ⟨year, month, 1⟩ = false := by
  unfold didDaysOverflow lastPossibleDayInMonth
  simp only
  cases TemporalOps.isLeapYear year <;> interval_cases month <;> rfl

lemma plusMonths_firstOfMonth (m n : Int) :
    plusMonths ⟨1970 + m / 12, 1 + m % 12, 1⟩ n = ⟨1970 + (m + n) / 12, 1 + (m + n) % 12, 1⟩ := by
  unfold plusMonths
  simp only [YearMonthDay.mk.injEq, and_true]
  omega

lemma supportedYear_monthStart {m : Int} (h : SupportedYear (1970 + m / 12)) :
    SupportedYear (1970 + yearOfDay (monthStart m)) := by
  rw [yearOfDay_monthStart]
  exact h

lemma monthStart_bounds {m : Int} (h : SupportedYear (1970 + m / 12)) :
    -13000000 ≤ monthStart m ∧ monthStart m ≤ 13000000 := by
  have := days_bounds (supportedYear_monthStart h)
  omega

lemma addMonths_firstOfMonth {m n tod : Int} (hm : SupportedYear (1970 + m / 12))
    (hn : SupportedYear (1970 + (m + n) / 12)) (htod : 0 ≤ tod ∧ tod < microsInDay) :
    addMonths date (monthStart m * microsInDay + tod) n = monthStart (m + n) * microsInDay + tod := by
  have hymd := yearMonthDay_add date (supportedYear_monthStart hm) htod
  rw [civilDate_monthStart] at hymd
  have hno := didDaysOverflow_firstDay (1970 + (m + n) / 12) (1 + (m + n) % 12) (by omega) (by omega)
  rw [addMonths, hymd, plusMonths_firstOfMonth, timeOfDay_add htod, sysDays_firstOfMonth date hn,
    timePoint_eq (monthStart_bounds hn) htod]
  simp only [hno, Bool.false_eq_true, if_false]

lemma addYears_firstOfMonth {m n tod : Int} (hm : SupportedYear (1970 + m / 12))
    (hn : SupportedYear (1970 + (m + 12 * n) / 12)) (htod : 0 ≤ tod ∧ tod < microsInDay) :
    addYears date (monthStart m * microsInDay + tod) n = monthStart (m + 12 * n) * microsInDay + tod := by
  have hymd := yearMonthDay_add date (supportedYear_monthStart hm) htod
  have hyear : 1970 + m / 12 + n = 1970 + (m + 12 * n) / 12 := by omega
  have hmonth : 1 + m % 12 = 1 + (m + 12 * n) % 12 := by omega
  rw [civilDate_monthStart] at hymd
  rw [addYears, hymd, plusYears, timeOfDay_add htod]
  simp only [hyear, hmonth]
  rw [sysDays_firstOfMonth date hn, timePoint_eq (monthStart_bounds hn) htod]

/-! ### Truncation in terms of the calendar -/

/-- The first step of the truncations: back to the first day of the month. -/
lemma addDays_toFirst {t : Int} (h : SupportedYear (calendarYear t)) :
    addDays date t (-(tmMday date t - 1)) = monthStart (monthOfDay (floorDays t)) * microsInDay + timeOfDay t := by
  obtain ⟨hlower, hupper, hyear⟩ := monthOfDay_spec (floorDays t)
  have hdays := days_bounds h
  have hlast := monthStart_succ_le (monthOfDay (floorDays t))
  have hymd := yearMonthDay_add date h (timeOfDay_bounds t)
  rw [floorDays_timeOfDay] at hymd
  have hday : -(tmMday date t - 1) = monthStart (monthOfDay (floorDays t)) - floorDays t := by
    simp only [tmMday, hymd, civilDate]
    omega
  have hadd := @addDays_add date (floorDays t) (timeOfDay t) (-(tmMday date t - 1)) h (timeOfDay_bounds t) (by omega)
  rw [floorDays_timeOfDay] at hadd
  rw [hadd, hday]
  congr 2
  omega

lemma tmMon_eq {t : Int} (h : SupportedYear (calendarYear t)) : tmMon date t = monthOfDay (floorDays t) % 12 := by
  have hymd := yearMonthDay_add date h (timeOfDay_bounds t)
  rw [floorDays_timeOfDay] at hymd
  simp only [tmMon, hymd, civilDate]
  omega

lemma tmYear_eq {t : Int} (h : SupportedYear (calendarYear t)) : tmYear date t = calendarYear t - 1900 := by
  have hymd := yearMonthDay_add date h (timeOfDay_bounds t)
  rw [floorDays_timeOfDay] at hymd
  rw [tmYear, hymd, civilDate, calendarYear]

lemma supportedYear_month {t : Int} (h : SupportedYear (calendarYear t)) :
    SupportedYear (1970 + monthOfDay (floorDays t) / 12) := by
  rw [(monthOfDay_spec (floorDays t)).2.2]
  exact h

lemma emod_le_self {a k : Int} (ha : 0 ≤ a) (hk : 0 < k) : a % k ≤ a := by
  have hmul := Int.mul_nonneg hk.le (Int.ediv_nonneg ha hk.le)
  rw [Int.emod_def]
  omega

lemma dateTruncMonthUnits_eq {k t : Int} (hk : 0 < k) (h : SupportedYear (calendarYear t)) :
    dateTruncMonthUnits date k t =
      monthStart (monthOfDay (floorDays t) - monthOfDay (floorDays t) % 12 % k) * microsInDay := by
  have hm := supportedYear_month h
  have hnonneg := Int.emod_nonneg (monthOfDay (floorDays t) % 12) hk.ne'
  have hle := @emod_le_self (monthOfDay (floorDays t) % 12) k (by omega) hk
  have hback : SupportedYear
      (1970 + (monthOfDay (floorDays t) + -(monthOfDay (floorDays t) % 12 % k)) / 12) := by
    unfold SupportedYear at hm ⊢
    omega
  have hrest : tmMon date t - (tmMon date t).tdiv k * k = monthOfDay (floorDays t) % 12 % k := by
    rw [tmMon_eq date h, Int.tdiv_eq_ediv_of_nonneg (by omega), Int.emod_def _ k, mul_comm k]
  simp only [dateTruncMonthUnits]
  rw [addDays_toFirst date h, hrest, addMonths_firstOfMonth date hm hback (timeOfDay_bounds t),
    clearTimeOfDay_add (monthStart_bounds hback) (timeOfDay_bounds t), sub_eq_add_neg]

/-- The year that `DateTruncYearUnits` goes back to. -/
def truncatedYear (yearsInUnit offBy year : Int) : Int := (year - offBy).tdiv yearsInUnit * yearsInUnit + offBy

lemma dateTruncYearUnits_eq {n offBy t : Int} (h : SupportedYear (calendarYear t))
    (htrunc : SupportedYear (truncatedYear n offBy (calendarYear t))) :
    dateTruncYearUnits date n offBy t =
      yearStart (truncatedYear n offBy (calendarYear t) - 1970) * microsInDay := by
  have hm := supportedYear_month h
  have hyear : monthOfDay (floorDays t) / 12 = calendarYear t - 1970 := by
    rw [(monthOfDay_spec (floorDays t)).2.2, calendarYear]
    omega
  have hjanuary : monthOfDay (floorDays t) + -(monthOfDay (floorDays t) % 12) = 12 * (calendarYear t - 1970) := by omega
  have hfirst : SupportedYear (1970 + (monthOfDay (floorDays t) + -(monthOfDay (floorDays t) % 12)) / 12) := by
    unfold SupportedYear at hm ⊢
    omega
  have hyears : 1900 + (calendarYear t - 1900) - offBy = calendarYear t - offBy := by omega
  have htarget : 12 * (calendarYear t - 1970) +
      12 * -(calendarYear t - 1900 - (truncatedYear n offBy (calendarYear t) - 1900)) =
      12 * (truncatedYear n offBy (calendarYear t) - 1970) := by omega
  have hlast : SupportedYear (1970 + (12 * (truncatedYear n offBy (calendarYear t) - 1970)) / 12) := by
    unfold SupportedYear at htrunc ⊢
    omega
  simp only [dateTruncYearUnits]
  rw [addDays_toFirst date h, tmMon_eq date h, tmYear_eq date h, hyears,
    addMonths_firstOfMonth date hm hfirst (timeOfDay_bounds t), hjanuary]
  rw [hjanuary] at hfirst
  change clearTimeOfDay (addYears date _ (-(calendarYear t - 1900 - (truncatedYear n offBy (calendarYear t) - 1900)))) = _
  rw [addYears_firstOfMonth date hfirst (htarget ▸ hlast) (timeOfDay_bounds t), htarget,
    clearTimeOfDay_add (monthStart_bounds hlast) (timeOfDay_bounds t), monthStart_year]

lemma dateTruncWeek_eq {t : Int} (h : SupportedYear (calendarYear t)) :
    dateTruncWeek date t = mondayOf (floorDays t) * microsInDay := by
  have hdays := days_bounds h
  have hwday : tmWday date t = Lib.weekday (floorDays t) := date.weekday_eq _
  have hback : -(if tmWday date t = 0 then 6 else tmWday date t - 1) = mondayOf (floorDays t) - floorDays t := by
    rw [hwday, mondayOf]
    unfold Lib.weekday
    split_ifs <;> omega
  have hmonday : floorDays t + (mondayOf (floorDays t) - floorDays t) = mondayOf (floorDays t) := by omega
  have hbounds : -13000000 ≤ mondayOf (floorDays t) ∧ mondayOf (floorDays t) ≤ 13000000 := by
    unfold mondayOf
    omega
  have hadd := @addDays_add date (floorDays t) (timeOfDay t) (mondayOf (floorDays t) - floorDays t) h
    (timeOfDay_bounds t) (by omega)
  rw [floorDays_timeOfDay, hmonday] at hadd
  simp only [dateTruncWeek, hback]
  rw [hadd, clearTimeOfDay_add hbounds (timeOfDay_bounds t)]

end

/-! ### Starts of units -/

/-- The first instants of the units of the calendar. -/
def IsUnitStart : TruncUnit → Int → Prop
  | .millennium, s => ∃ year, year % 1000 = 1 ∧ s = sysDays year 1 1 * microsInDay
  | .century, s => ∃ year, year % 100 = 1 ∧ s = sysDays year 1 1 * microsInDay
  | .decade, s => ∃ year, year % 10 = 0 ∧ s = sysDays year 1 1 * microsInDay
  | .year, s => ∃ year, s = sysDays year 1 1 * microsInDay
  | .quarter, s => ∃ year month, (month = 1 ∨ month = 4 ∨ month = 7 ∨ month = 10) ∧ s = sysDays year month 1 * microsInDay
  | .month, s => ∃ year month, 1 ≤ month ∧ month ≤ 12 ∧ s = sysDays year month 1 * microsInDay
  | .week, s => ∃ day, Lib.weekday day = 1 ∧ s = day * microsInDay
  | .day, s => ∃ k, s = k * microsInDay
  | .hour, s => ∃ k, s = k * microsInHour
  | .minute, s => ∃ k, s = k * microsInMinute
  | .second, s => ∃ k, s = k * microsInSecond
  | .milliseconds, s => ∃ k, s = k * microsInMilli

/-- The starts of a unit are the values of an increasing sequence: of years, months, days or of the
unit itself. -/
def unitStart : TruncUnit → Int → Int
  | .millennium, j | .century, j | .decade, j => yearStart (j - 1970) * microsInDay
  | .year, j | .quarter, j | .month, j => monthStart j * microsInDay
  | .week, j | .day, j => j * microsInDay
  | .hour, j => j * microsInHour
  | .minute, j => j * microsInMinute
  | .second, j => j * microsInSecond
  | .milliseconds, j => j * microsInMilli

def IsUnitIndex : TruncUnit → Int → Prop
  | .millennium, j => j % 1000 = 1
  | .century, j => j % 100 = 1
  | .decade, j => j % 10 = 0
  | .year, j => j % 12 = 0
  | .quarter, j => j % 3 = 0
  | .week, j => Lib.weekday j = 1
  | _, _ => True

/-- The index of the unit of a timestamp. -/
def floorIndex : TruncUnit → Int → Int
  | .millennium, t => (calendarYear t - 1) / 1000 * 1000 + 1
  | .century, t => (calendarYear t - 1) / 100 * 100 + 1
  | .decade, t => calendarYear t / 10 * 10
  | .year, t => monthOfDay (floorDays t) - monthOfDay (floorDays t) % 12
  | .quarter, t => monthOfDay (floorDays t) - monthOfDay (floorDays t) % 3
  | .month, t => monthOfDay (floorDays t)
  | .week, t => mondayOf (floorDays t)
  | .day, t => t / microsInDay
  | .hour, t => t / microsInHour
  | .minute, t => t / microsInMinute
  | .second, t => t / microsInSecond
  | .milliseconds, t => t / microsInMilli

lemma sysDays_january (year : Int) : sysDays year 1 1 = yearStart (year - 1970) := by
  rw [yearStart, add_sub_cancel]

lemma sysDays_firstDay (year month : Int) (h1 : 1 ≤ month) (h2 : month ≤ 12) :
    sysDays year month 1 = monthStart (12 * (year - 1970) + (month - 1)) := by
  have hdiv : 1970 + (12 * (year - 1970) + (month - 1)) / 12 = year := by omega
  have hmod : 1 + (12 * (year - 1970) + (month - 1)) % 12 = month := by omega
  rw [monthStart, hdiv, hmod]

lemma isUnitStart_iff (unit : TruncUnit) (s : Int) :
    IsUnitStart unit s ↔ ∃ j, IsUnitIndex unit j ∧ s = unitStart unit j := by
  cases unit with
  | millennium => simp only [IsUnitStart, IsUnitIndex, unitStart, sysDays_january]
  | century => simp only [IsUnitStart, IsUnitIndex, unitStart, sysDays_january]
  | decade => simp only [IsUnitStart, IsUnitIndex, unitStart, sysDays_january]
  | year =>
    constructor
    · rintro ⟨year, rfl⟩
      refine ⟨12 * (year - 1970), by simp only [IsUnitIndex]; omega, ?_⟩
      rw [sysDays_january, unitStart, monthStart_year]
    · rintro ⟨j, hj, rfl⟩
      have hj : j = 12 * (j / 12 + 1970 - 1970) := by
        simp only [IsUnitIndex] at hj
        omega
      refine ⟨j / 12 + 1970, ?_⟩
      rw [sysDays_january, unitStart, ← monthStart_year, ← hj]
  | quarter =>
    constructor
    · rintro ⟨year, month, hmonth, rfl⟩
      refine ⟨12 * (year - 1970) + (month - 1), by simp only [IsUnitIndex]; omega, ?_⟩
      rw [sysDays_firstDay year month (by omega) (by omega), unitStart]
    · rintro ⟨j, hj, rfl⟩
      simp only [IsUnitIndex] at hj
      refine ⟨1970 + j / 12, 1 + j % 12, by omega, ?_⟩
      rw [unitStart, monthStart]
  | month =>
    constructor
    · rintro ⟨year, month, h1, h2, rfl⟩
      exact ⟨12 * (year - 1970) + (month - 1), trivial, by rw [sysDays_firstDay year month h1 h2, unitStart]⟩
    · rintro ⟨j, -, rfl⟩
      exact ⟨1970 + j / 12, 1 + j % 12, by omega, by omega, by rw [unitStart, monthStart]⟩
  | week => simp only [IsUnitStart, IsUnitIndex, unitStart]
  | day => simp only [IsUnitStart, IsUnitIndex, unitStart, true_and]
  | hour => simp only [IsUnitStart, IsUnitIndex, unitStart, true_and]
  | minute => simp only [IsUnitStart, IsUnitIndex, unitStart, true_and]
  | second => simp only [IsUnitStart, IsUnitIndex, unitStart, true_and]
  | milliseconds => simp only [IsUnitStart, IsUnitIndex, unitStart, true_and]

lemma unitStart_strictMono (unit : TruncUnit) : StrictMono (unitStart unit) := by
  intro i j hij
  have hmonth := monthStart_strictMono hij
  have hyear := yearStart_strictMono (show i - 1970 < j - 1970 by omega)
  cases unit <;> simp only [unitStart, microsInDay_eq, microsInHour_eq, microsInMinute_eq, microsInSecond_eq,
    microsInMilli_eq] <;> omega

lemma yearStart_le_of_le {y t : Int} (h : y ≤ calendarYear t) : yearStart (y - 1970) * microsInDay ≤ t := by
  have hstart := (yearOfDay_spec (floorDays t)).1
  have hmono := yearStart_strictMono.monotone (show y - 1970 ≤ yearOfDay (floorDays t) by unfold calendarYear at h; omega)
  unfold floorDays at hstart hmono
  rw [microsInDay_eq] at *
  omega

lemma lt_yearStart_of_lt {y t : Int} (h : calendarYear t < y) : t < yearStart (y - 1970) * microsInDay := by
  have hend := (yearOfDay_spec (floorDays t)).2
  have hmono := yearStart_strictMono.monotone (show yearOfDay (floorDays t) + 1 ≤ y - 1970 by unfold calendarYear at h; omega)
  unfold floorDays at hend hmono
  rw [microsInDay_eq] at *
  omega

lemma monthStart_le_of_le {m t : Int} (h : m ≤ monthOfDay (floorDays t)) : monthStart m * microsInDay ≤ t := by
  have hstart := (monthOfDay_spec (floorDays t)).1
  have hmono := monthStart_strictMono.monotone h
  unfold floorDays at hstart hmono
  rw [microsInDay_eq] at *
  omega

lemma lt_monthStart_of_lt {m t : Int} (h : monthOfDay (floorDays t) < m) : t < monthStart m * microsInDay := by
  have hend := (monthOfDay_spec (floorDays t)).2.1
  have hmono := monthStart_strictMono.monotone (show monthOfDay (floorDays t) + 1 ≤ m by omega)
  unfold floorDays at hend hmono
  rw [microsInDay_eq] at *
  omega

/-- The unit of a timestamp starts at or before it, and the next one after it. -/
lemma floorIndex_spec (unit : TruncUnit) (t : Int) :
    IsUnitIndex unit (floorIndex unit t) ∧ unitStart unit (floorIndex unit t) ≤ t ∧
      ∀ j, IsUnitIndex unit j → floorIndex unit t < j → t < unitStart unit j := by
  cases unit with
  | millennium =>
    simp only [IsUnitIndex, floorIndex, unitStart]
    exact ⟨by omega, yearStart_le_of_le (by omega), fun j hj hlt => lt_yearStart_of_lt (by omega)⟩
  | century =>
    simp only [IsUnitIndex, floorIndex, unitStart]
    exact ⟨by omega, yearStart_le_of_le (by omega), fun j hj hlt => lt_yearStart_of_lt (by omega)⟩
  | decade =>
    simp only [IsUnitIndex, floorIndex, unitStart]
    exact ⟨by omega, yearStart_le_of_le (by omega), fun j hj hlt => lt_yearStart_of_lt (by omega)⟩
  | year =>
    simp only [IsUnitIndex, floorIndex, unitStart]
    exact ⟨by omega, monthStart_le_of_le (by omega), fun j hj hlt => lt_monthStart_of_lt (by omega)⟩
  | quarter =>
    simp only [IsUnitIndex, floorIndex, unitStart]
    exact ⟨by omega, monthStart_le_of_le (by omega), fun j hj hlt => lt_monthStart_of_lt (by omega)⟩
  | month =>
    simp only [IsUnitIndex, floorIndex, unitStart]
    exact ⟨trivial, monthStart_le_of_le le_rfl, fun j _ hlt => lt_monthStart_of_lt hlt⟩
  | week =>
    simp only [IsUnitIndex, floorIndex, unitStart, mondayOf, Lib.weekday, floorDays, microsInDay_eq]
    refine ⟨by omega, by omega, ?_⟩
    intro j hj hlt
    omega
  | day =>
    simp only [IsUnitIndex, floorIndex, unitStart, microsInDay_eq]
    exact ⟨trivial, by omega, fun j _ hlt => by omega⟩
  | hour =>
    simp only [IsUnitIndex, floorIndex, unitStart, microsInHour_eq]
    exact ⟨trivial, by omega, fun j _ hlt => by omega⟩
  | minute =>
    simp only [IsUnitIndex, floorIndex, unitStart, microsInMinute_eq]
    exact ⟨trivial, by omega, fun j _ hlt => by omega⟩
  | second =>
    simp only [IsUnitIndex, floorIndex, unitStart, microsInSecond_eq]
    exact ⟨trivial, by omega, fun j _ hlt => by omega⟩
  | milliseconds =>
    simp only [IsUnitIndex, floorIndex, unitStart, microsInMilli_eq]
    exact ⟨trivial, by omega, fun j _ hlt => by omega⟩

lemma isGreatest_floorIndex (unit : TruncUnit) (t : Int) :
    IsGreatest {s | IsUnitStart unit s ∧ s ≤ t} (unitStart unit (floorIndex unit t)) := by
  obtain ⟨hindex, hle, hnext⟩ := floorIndex_spec unit t
  have hset : {s | IsUnitStart unit s ∧ s ≤ t} = {s | (∃ j, IsUnitIndex unit j ∧ s = unitStart unit j) ∧ s ≤ t} := by
    ext s
    simp only [Set.mem_ofPred_eq, isUnitStart_iff]
  rw [hset]
  exact isGreatest_of_strictMono (unitStart_strictMono unit) hindex hle hnext

/-! ### The truncations are floors -/

/-- Dividing the year rounds down: the year is not before the first unit of the calendar, or it is the
first of its unit. -/
def RoundsDown : TruncUnit → Int → Prop
  | .millennium, year => 1 ≤ year ∨ year % 1000 = 1
  | .century, year => 1 ≤ year ∨ year % 100 = 1
  | .decade, year => 0 ≤ year ∨ year % 10 = 0
  | _, _ => True

lemma truncatedYear_of_floor {n offBy year : Int} (hn : 0 < n) (h : offBy ≤ year ∨ (year - offBy) % n = 0) :
    truncatedYear n offBy year = (year - offBy) / n * n + offBy := by
  have hdvd : 0 ≤ year - offBy ∨ n ∣ year - offBy := by
    rcases h with h | h
    · exact .inl (by omega)
    · exact .inr (Int.dvd_of_emod_eq_zero h)
  rw [truncatedYear, (tdiv_eq_floor_iff hn).mpr hdvd]

/-- Below zero the division of the year rounds up. -/
lemma lt_truncatedYear {n offBy year : Int} (hn : 0 < n) (h : ¬(offBy ≤ year ∨ (year - offBy) % n = 0)) :
    truncatedYear n offBy year = (year - offBy) / n * n + offBy + n := by
  have hdvd : ¬(0 ≤ year - offBy ∨ n ∣ year - offBy) := by
    intro h'
    rcases h' with h' | h'
    · exact h (.inl (by omega))
    · exact h (.inr (Int.emod_eq_zero_of_dvd h'))
  rw [truncatedYear, Int.tdiv_eq_ediv, if_neg hdvd, Int.sign_eq_one_of_pos hn]
  ring

section

variable (date : DateLibrary)

lemma supportedYear_of_range {year : Int} (h : -32100 ≤ year ∧ year ≤ 32000) : SupportedYear year := by
  unfold SupportedYear
  omega

lemma dateTruncYearUnits_of_floor {n offBy t : Int} (hn : 0 < n) (hoff : 0 ≤ offBy)
    (hyear : -32100 ≤ calendarYear t ∧ calendarYear t ≤ 32000)
    (h : offBy ≤ calendarYear t ∨ (calendarYear t - offBy) % n = 0) :
    dateTruncYearUnits date n offBy t = yearStart ((calendarYear t - offBy) / n * n + offBy - 1970) * microsInDay := by
  have htrunc := truncatedYear_of_floor hn h
  have hle := Int.ediv_mul_le (calendarYear t - offBy) hn.ne'
  have hge : -32100 ≤ (calendarYear t - offBy) / n * n + offBy := by
    rcases h with h | h
    · have := Int.mul_nonneg (Int.ediv_nonneg (show 0 ≤ calendarYear t - offBy by omega) hn.le) hn.le
      omega
    · have := Int.ediv_mul_cancel (Int.dvd_of_emod_eq_zero h)
      omega
  rw [dateTruncYearUnits_eq date (supportedYear_of_range hyear), htrunc]
  rw [htrunc]
  apply supportedYear_of_range
  omega

lemma lt_dateTruncYearUnits {n offBy t : Int} (hn : 0 < n) (hoff : 0 ≤ offBy ∧ offBy ≤ 1)
    (hyear : -32100 ≤ calendarYear t ∧ calendarYear t ≤ 32000)
    (h : ¬(offBy ≤ calendarYear t ∨ (calendarYear t - offBy) % n = 0)) : t < dateTruncYearUnits date n offBy t := by
  have htrunc := lt_truncatedYear hn h
  have hle := Int.ediv_mul_le (calendarYear t - offBy) hn.ne'
  have hlt := Int.lt_ediv_add_one_mul_self (calendarYear t - offBy) hn
  rw [add_mul, one_mul] at hlt
  have hneg : (calendarYear t - offBy) / n * n + n ≤ 0 := by
    have hquot : (calendarYear t - offBy) / n + 1 ≤ 0 := Int.ediv_neg_of_neg_of_pos (by omega) hn
    nlinarith
  rw [dateTruncYearUnits_eq date (supportedYear_of_range hyear)]
  · apply lt_yearStart_of_lt
    omega
  · rw [htrunc]
    apply supportedYear_of_range
    omega

lemma inInt64_of_year {t u : Int} (hyear : SupportedYear (calendarYear t)) (hu : 0 < u ∧ u ≤ microsInDay) :
    InInt64 (t / u * u) := by
  have hdays := days_bounds hyear
  have hle := Int.ediv_mul_le t hu.1.ne'
  have hlt := Int.lt_ediv_add_one_mul_self t hu.1
  rw [add_mul, one_mul] at hlt
  unfold floorDays at hdays
  rw [inInt64_iff]
  rw [microsInDay_eq] at hdays hu
  omega

lemma dateTrunc_eq {unit : TruncUnit} {t : Int} (hyear : -32100 ≤ calendarYear t ∧ calendarYear t ≤ 32000)
    (h : RoundsDown unit (calendarYear t)) : dateTrunc date unit t = unitStart unit (floorIndex unit t) := by
  have hsupported := supportedYear_of_range hyear
  cases unit with
  | millennium =>
    apply dateTruncYearUnits_of_floor date (by decide) (by decide) hyear
    simp only [RoundsDown] at h
    omega
  | century =>
    apply dateTruncYearUnits_of_floor date (by decide) (by decide) hyear
    simp only [RoundsDown] at h
    omega
  | decade =>
    have hdecade := @dateTruncYearUnits_of_floor date 10 0 t (by decide) le_rfl hyear (by
      simp only [RoundsDown] at h
      omega)
    simp only [sub_zero, add_zero] at hdecade
    exact hdecade
  | year =>
    have hmod : monthOfDay (floorDays t) % 12 % 12 = monthOfDay (floorDays t) % 12 := by omega
    have hmonths := @dateTruncMonthUnits_eq date 12 t (by decide) hsupported
    rw [hmod] at hmonths
    exact hmonths
  | quarter =>
    have hmod : monthOfDay (floorDays t) % 12 % 3 = monthOfDay (floorDays t) % 3 := by omega
    have hmonths := @dateTruncMonthUnits_eq date 3 t (by decide) hsupported
    rw [hmod] at hmonths
    exact hmonths
  | month =>
    have hmod : monthOfDay (floorDays t) - monthOfDay (floorDays t) % 12 % 1 = monthOfDay (floorDays t) := by omega
    have hmonths := @dateTruncMonthUnits_eq date 1 t (by decide) hsupported
    rw [hmod] at hmonths
    exact hmonths
  | week => exact dateTruncWeek_eq date hsupported
  | day => exact dateTruncFixedUnit_eq (by decide) (inInt64_of_year hsupported (by decide))
  | hour => exact dateTruncFixedUnit_eq (by decide) (inInt64_of_year hsupported (by decide))
  | minute => exact dateTruncFixedUnit_eq (by decide) (inInt64_of_year hsupported (by decide))
  | second => exact dateTruncFixedUnit_eq (by decide) (inInt64_of_year hsupported (by decide))
  | milliseconds => exact dateTruncFixedUnit_eq (by decide) (inInt64_of_year hsupported (by decide))

/-- Where the division of the year rounds up, the truncated timestamp is after the timestamp. -/
lemma lt_dateTrunc {unit : TruncUnit} {t : Int} (hyear : -32100 ≤ calendarYear t ∧ calendarYear t ≤ 32000)
    (h : ¬RoundsDown unit (calendarYear t)) : t < dateTrunc date unit t := by
  cases unit with
  | millennium =>
    apply lt_dateTruncYearUnits date (by decide) (by decide) hyear
    simp only [RoundsDown] at h
    omega
  | century =>
    apply lt_dateTruncYearUnits date (by decide) (by decide) hyear
    simp only [RoundsDown] at h
    omega
  | decade =>
    apply lt_dateTruncYearUnits date (by decide) (by decide) hyear
    simp only [RoundsDown] at h
    omega
  | _ => exact absurd trivial h

lemma le_calendarYear {y t : Int} (h : yearStart (y - 1970) * microsInDay ≤ t) : y ≤ calendarYear t := by
  by_contra hlt
  have := lt_yearStart_of_lt (not_le.mp hlt)
  omega

lemma calendarYear_yearStart (y : Int) : calendarYear (yearStart (y - 1970) * microsInDay) = y := by
  apply le_antisymm
  · by_contra hlt
    have := yearStart_strictMono (show y - 1970 < calendarYear (yearStart (y - 1970) * microsInDay) - 1970 by omega)
    have hle := @yearStart_le_of_le (calendarYear (yearStart (y - 1970) * microsInDay))
      (yearStart (y - 1970) * microsInDay) le_rfl
    rw [microsInDay_eq] at *
    omega
  · exact le_calendarYear le_rfl

/-- The first day of a year is at most six days after the start of the unit it is in. -/
lemma yearStart_le_unitStart {unit : TruncUnit} {t : Int} (hm : unit ≠ .millennium) (hc : unit ≠ .century)
    (hd : unit ≠ .decade) : (yearStart (calendarYear t - 1970) - 6) * microsInDay ≤ unitStart unit (floorIndex unit t) := by
  have hstart := @yearStart_le_of_le (calendarYear t) t le_rfl
  have hmonths : 12 * (calendarYear t - 1970) ≤ monthOfDay (floorDays t) ∧
      monthOfDay (floorDays t) < 12 * (calendarYear t - 1970) + 12 := by
    have := (monthOfDay_spec (floorDays t)).2.2
    unfold calendarYear
    omega
  have hjanuary := monthStart_year (calendarYear t - 1970)
  cases unit with
  | millennium => exact absurd rfl hm
  | century => exact absurd rfl hc
  | decade => exact absurd rfl hd
  | year =>
    have hfirst : monthOfDay (floorDays t) - monthOfDay (floorDays t) % 12 = 12 * (calendarYear t - 1970) := by omega
    rw [floorIndex, unitStart, hfirst, hjanuary, microsInDay_eq]
    omega
  | quarter =>
    have hmono := monthStart_strictMono.monotone
      (show 12 * (calendarYear t - 1970) ≤ monthOfDay (floorDays t) - monthOfDay (floorDays t) % 3 by omega)
    rw [floorIndex, unitStart, microsInDay_eq]
    omega
  | month =>
    have hmono := monthStart_strictMono.monotone hmonths.1
    rw [floorIndex, unitStart, microsInDay_eq]
    omega
  | week =>
    simp only [floorIndex, unitStart, mondayOf, floorDays]
    rw [microsInDay_eq] at *
    omega
  | _ =>
    simp only [floorIndex, unitStart, microsInHour_eq, microsInMinute_eq, microsInSecond_eq, microsInMilli_eq]
    rw [microsInDay_eq] at *
    omega

/-- The start of a unit is itself rounded down. -/
lemma roundsDown_floorIndex {unit : TruncUnit} {t : Int} (hyear : -32000 ≤ calendarYear t ∧ calendarYear t ≤ 32000)
    (h : RoundsDown unit (calendarYear t)) :
    (-32100 ≤ calendarYear (unitStart unit (floorIndex unit t)) ∧
        calendarYear (unitStart unit (floorIndex unit t)) ≤ 32000) ∧
      RoundsDown unit (calendarYear (unitStart unit (floorIndex unit t))) := by
  by_cases hunit : unit = .millennium ∨ unit = .century ∨ unit = .decade
  · rcases hunit with rfl | rfl | rfl <;> simp only [floorIndex, unitStart, calendarYear_yearStart] <;>
      simp only [RoundsDown] at * <;> omega
  · push Not at hunit
    obtain ⟨hm, hc, hd⟩ := hunit
    have hlower := @yearStart_le_unitStart unit t hm hc hd
    have hprevious := yearStart_succ (calendarYear t - 1 - 1970)
    have hback : yearStart (calendarYear t - 1 - 1970) * microsInDay ≤ unitStart unit (floorIndex unit t) := by
      rw [microsInDay_eq] at *
      have heq : calendarYear t - 1 - 1970 + 1 = calendarYear t - 1970 := by omega
      rw [heq] at hprevious
      omega
    have hge := le_calendarYear hback
    have hle : calendarYear (unitStart unit (floorIndex unit t)) ≤ calendarYear t := by
      apply le_calendarYear
      exact (yearStart_le_of_le le_rfl).trans (floorIndex_spec unit t).2.1
    refine ⟨by omega, ?_⟩
    cases unit <;> first | exact trivial | exact absurd rfl hm | exact absurd rfl hc | exact absurd rfl hd

/-- What a truncation should be: the greatest start of a unit that is not after the timestamp, and so
not after it and unchanged by a second truncation. -/
structure TruncatesDown (unit : TruncUnit) (t : Int) : Prop where
  floor : IsGreatest {s | IsUnitStart unit s ∧ s ≤ t} (dateTrunc date unit t)
  le : dateTrunc date unit t ≤ t
  idempotent : dateTrunc date unit (dateTrunc date unit t) = dateTrunc date unit t

lemma truncatesDown_of_roundsDown {unit : TruncUnit} {t : Int}
    (hyear : -32000 ≤ calendarYear t ∧ calendarYear t ≤ 32000) (h : RoundsDown unit (calendarYear t)) :
    TruncatesDown date unit t := by
  have heq := @dateTrunc_eq date unit t (by omega) h
  have hgreatest := isGreatest_floorIndex unit t
  obtain ⟨hrange, hagain⟩ := roundsDown_floorIndex hyear h
  constructor
  · rw [heq]
    exact hgreatest
  · rw [heq]
    exact hgreatest.1.2
  · rw [heq, dateTrunc_eq date hrange hagain]
    apply (isGreatest_floorIndex unit _).unique
    exact ⟨⟨hgreatest.1.1, le_rfl⟩, fun s hs => hs.2⟩

/-- Truncation rounds down, is idempotent and monotone, except to a millennium, a century or a decade
in years before the first such unit of the calendar that are not the first of their unit. -/
theorem dateTrunc_truncatesDown_iff (unit : TruncUnit) :
    (∀ t : SignedInt 64, -32000 ≤ calendarYear t.val → calendarYear t.val ≤ 32000 →
      (TruncatesDown date unit t.val ↔ RoundsDown unit (calendarYear t.val))) ∧
    ∀ t u : SignedInt 64, -32000 ≤ calendarYear t.val → calendarYear u.val ≤ 32000 →
      RoundsDown unit (calendarYear t.val) → RoundsDown unit (calendarYear u.val) → t.val ≤ u.val →
      dateTrunc date unit t.val ≤ dateTrunc date unit u.val := by
  constructor
  · intro t h1 h2
    constructor
    · intro h
      by_contra hup
      have hlt := lt_dateTrunc date (by omega) hup
      have hle := h.le
      omega
    · exact truncatesDown_of_roundsDown date ⟨h1, h2⟩
  · intro t u h1 h2 ht hu hle
    have hyears : calendarYear t.val ≤ calendarYear u.val := by
      apply le_calendarYear
      exact (yearStart_le_of_le le_rfl).trans hle
    have hfirst := truncatesDown_of_roundsDown date ⟨h1, by omega⟩ ht
    have hsecond := truncatesDown_of_roundsDown date ⟨by omega, h2⟩ hu
    exact hsecond.floor.2 ⟨hfirst.floor.1.1, hfirst.le.trans hle⟩

end

/-- The epoch is truncated to the first day of 1901. -/
theorem dateTrunc_century_epoch :
    TruncatesDown gregorian .century 0 ∧ dateTrunc gregorian .century 0 = sysDays 1901 1 1 * microsInDay :=
  ⟨((dateTrunc_truncatesDown_iff gregorian .century).1 ⟨0, by decide⟩ (by decide) (by decide)).mpr (.inl (by decide)),
    by decide +kernel⟩

/-- The first day of the year 0 is truncated to the first day of the year 1. -/
theorem not_truncatesDown_yearZero :
    ¬∀ (date : DateLibrary) (unit : TruncUnit) (t : SignedInt 64), -32000 ≤ calendarYear t.val →
      calendarYear t.val ≤ 32000 → TruncatesDown date unit t.val := by
  intro h
  have hle := (h gregorian .century ⟨-62167219200000000, by decide⟩ (by decide) (by decide)).le
  exact absurd hle (by decide +kernel)

end IcebergCxx.Proofs
