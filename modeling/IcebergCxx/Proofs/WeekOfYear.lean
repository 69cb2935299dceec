import IcebergCxx.Proofs.DateTrunc

/-!
# The week of a timestamp

The case analysis on the weekday of January 1 and the days at both ends of the year gives the week of
ISO 8601: a year has its week 1 where its first Thursday is.
-/

namespace IcebergCxx.Proofs

open Lib TemporalOps

lemma isLeapYear_eq (year : Int) : TemporalOps.isLeapYear year = Lib.isLeapYear year := by
  have htmod : ∀ n : Int, year.tmod n = 0 ↔ year % n = 0 := fun n =>
    ⟨fun h => Int.emod_eq_zero_of_dvd (Int.dvd_of_tmod_eq_zero h),
      fun h => Int.tmod_eq_zero_of_dvd (Int.dvd_of_emod_eq_zero h)⟩
  unfold TemporalOps.isLeapYear Lib.isLeapYear
  simp only [ne_eq, htmod]
  by_cases h4 : year % 4 = 0
  · by_cases h400 : year % 400 = 0
    · simp [h4, h400]
    · simp [h4, h400]
  · simp [h4]

section

variable (date : DateLibrary) {t : Int}

/-! ### The fields that the weeks are computed from -/

lemma tmYday_eq (h : SupportedYear (calendarYear t)) :
    tmYday date t = floorDays t - yearStart (yearOfDay (floorDays t)) := by
  have hymd := yearMonthDay_add date h (timeOfDay_bounds t)
  rw [floorDays_timeOfDay] at hymd
  rw [tmYday, hymd, date.sysDays_eq ⟨(civilDate (floorDays t)).year, 1, 1⟩ h le_rfl (by simp only; omega) le_rfl
    (by simp only; omega)]
  rfl

lemma tmWday_eq : tmWday date t = Lib.weekday (floorDays t) := date.weekday_eq _

lemma tmMday_eq (h : SupportedYear (calendarYear t)) :
    tmMday date t = 1 + (floorDays t - monthStart (monthOfDay (floorDays t))) := by
  have hymd := yearMonthDay_add date h (timeOfDay_bounds t)
  rw [floorDays_timeOfDay] at hymd
  rw [tmMday, hymd, civilDate]

lemma yday_bounds : 0 ≤ floorDays t - yearStart (yearOfDay (floorDays t)) ∧
    floorDays t < yearStart (yearOfDay (floorDays t) + 1) := by
  have := yearOfDay_spec (floorDays t)
  omega

lemma jan1Wday_eq (h : SupportedYear (calendarYear t)) :
    jan1Wday date t = Lib.weekday (yearStart (yearOfDay (floorDays t))) := by
  obtain ⟨hlower, -⟩ := @yday_bounds t
  rw [jan1Wday, tmYday_eq date h, tmWday_eq, Int.tmod_eq_emod_of_nonneg hlower]
  unfold Lib.weekday
  rw [Int.tmod_eq_emod_of_nonneg (by omega)]
  omega

/-- The days of January are those before its end. -/
lemma tmMday_january (h : SupportedYear (calendarYear t))
    (hjanuary : floorDays t < yearStart (yearOfDay (floorDays t)) + 31) :
    tmMday date t = 1 + (floorDays t - yearStart (yearOfDay (floorDays t))) := by
  obtain ⟨hlower, -⟩ := @yday_bounds t
  have hmonth : monthOfDay (floorDays t) = 12 * yearOfDay (floorDays t) := by
    apply monthOfDay_eq
    · rw [monthStart_year]
      omega
    · rw [monthStart_february]
      exact hjanuary
  rw [tmMday_eq date h, hmonth, monthStart_year]

lemma tmMday_december (h : SupportedYear (calendarYear t)) (hdecember : tmMon date t = 11) :
    tmMday date t = floorDays t - yearStart (yearOfDay (floorDays t) + 1) + 32 := by
  have hyear := (monthOfDay_spec (floorDays t)).2.2
  rw [tmMon_eq date h] at hdecember
  have hmonth : monthOfDay (floorDays t) = 12 * yearOfDay (floorDays t) + 11 := by omega
  rw [tmMday_eq date h, hmonth, monthStart_december]
  omega

lemma tmMon_of_december (h : SupportedYear (calendarYear t))
    (hdecember : yearStart (yearOfDay (floorDays t) + 1) - 31 ≤ floorDays t) : tmMon date t = 11 := by
  obtain ⟨-, hupper⟩ := @yday_bounds t
  have hmonth : monthOfDay (floorDays t) = 12 * yearOfDay (floorDays t) + 11 := by
    apply monthOfDay_eq
    · rw [monthStart_december]
      exact hdecember
    · have hnext : 12 * yearOfDay (floorDays t) + 11 + 1 = 12 * (yearOfDay (floorDays t) + 1) := by omega
      rw [hnext, monthStart_year]
      exact hupper
  rw [tmMon_eq date h, hmonth]
  omega

/-- The last three days of the year. -/
lemma december_iff (h : SupportedYear (calendarYear t)) :
    (tmMon date t = 11 ∧ tmMday date t ≥ 29) ↔ yearStart (yearOfDay (floorDays t) + 1) - 3 ≤ floorDays t := by
  constructor
  · rintro ⟨hmon, hday⟩
    rw [tmMday_december date h hmon] at hday
    omega
  · intro hlast
    have hmon := tmMon_of_december date h (by omega)
    rw [tmMday_december date h hmon]
    exact ⟨hmon, by omega⟩

/-! ### The three parts of a year -/

/-- Away from the first three days, the weeks are counted from week 1 of the year. -/
lemma weekOfCurrentYear_eq (h : SupportedYear (calendarYear t))
    (hyday : 3 ≤ floorDays t - yearStart (yearOfDay (floorDays t))) :
    weekOfCurrentYear date t = (floorDays t - firstMonday (yearOfDay (floorDays t))) / 7 + 1 := by
  have hmonday := firstMonday_eq (yearOfDay (floorDays t))
  simp only [weekOfCurrentYear, jan1Wday_eq date h, tmYday_eq date h]
  unfold Lib.weekday at *
  split_ifs
  · rw [Int.tdiv_eq_ediv_of_nonneg (by omega)]
    omega
  · rw [Int.tdiv_eq_ediv_of_nonneg (by omega)]
    omega
  · rw [Int.tdiv_eq_ediv_of_nonneg (by omega)]
    omega
  · omega

/-- A day of the year from the Monday of its week 1 to that of the next year. -/
lemma hasWeek_current {week : Int} (h1 : firstMonday (yearOfDay (floorDays t)) ≤ floorDays t)
    (h2 : floorDays t < firstMonday (yearOfDay (floorDays t) + 1))
    (hweek : week = (floorDays t - firstMonday (yearOfDay (floorDays t))) / 7 + 1) : HasWeek (floorDays t) week :=
  ⟨yearOfDay (floorDays t), h1, h2, hweek⟩

lemma getJanWeekOfYear_hasWeek (h : SupportedYear (calendarYear t))
    (hyday : floorDays t - yearStart (yearOfDay (floorDays t)) < 3) :
    HasWeek (floorDays t) (getJanWeekOfYear date t) := by
  obtain ⟨hlower, -⟩ := @yday_bounds t
  have hprevious := yearStart_succ_eq (yearOfDay (floorDays t) - 1)
  have hnext := yearStart_succ (yearOfDay (floorDays t))
  have hmonday := firstMonday_eq (yearOfDay (floorDays t))
  have hmondayNext := firstMonday_eq (yearOfDay (floorDays t) + 1)
  have hmondayPrevious := firstMonday_eq (yearOfDay (floorDays t) - 1)
  have hyear : 1900 + tmYear date t - 1 = 1970 + (yearOfDay (floorDays t) - 1) := by
    rw [tmYear_eq date h, calendarYear]
    omega
  rw [sub_add_cancel] at hprevious
  simp only [getJanWeekOfYear, jan1Wday_eq date h, tmMday_january date h (by omega), hyear, isLeapYear_eq]
  by_cases hfirst : firstMonday (yearOfDay (floorDays t)) ≤ floorDays t
  · apply hasWeek_current hfirst
    · unfold Lib.weekday at *
      omega
    · unfold Lib.weekday at *
      split_ifs <;> omega
  · refine ⟨yearOfDay (floorDays t) - 1, ?_, ?_, ?_⟩
    · unfold Lib.weekday at *
      split_ifs at hprevious <;> omega
    · rw [sub_add_cancel]
      omega
    · unfold Lib.weekday at *
      split_ifs at hprevious ⊢ <;> omega

lemma getDecWeekOfYear_hasWeek (h : SupportedYear (calendarYear t))
    (hdecember : yearStart (yearOfDay (floorDays t) + 1) - 3 ≤ floorDays t) :
    HasWeek (floorDays t) (getDecWeekOfYear date t) := by
  obtain ⟨hlower, hupper⟩ := @yday_bounds t
  have hnext := yearStart_succ (yearOfDay (floorDays t))
  have hnext2 := yearStart_succ (yearOfDay (floorDays t) + 1)
  have hmonday := firstMonday_eq (yearOfDay (floorDays t))
  have hmondayNext := firstMonday_eq (yearOfDay (floorDays t) + 1)
  have hmondayNext2 := firstMonday_eq (yearOfDay (floorDays t) + 1 + 1)
  have hwday : (tmWday date t + (31 - tmMday date t) + 1).tmod 7 =
      Lib.weekday (yearStart (yearOfDay (floorDays t) + 1)) := by
    rw [tmMday_december date h (tmMon_of_december date h (by omega)), tmWday_eq]
    unfold Lib.weekday
    rw [Int.tmod_eq_emod_of_nonneg (by omega)]
    omega
  simp only [getDecWeekOfYear, hwday]
  simp only [tmMday_december date h (tmMon_of_december date h (by omega)), weekOfCurrentYear_eq date h (by omega)]
  by_cases hlast : firstMonday (yearOfDay (floorDays t) + 1) ≤ floorDays t
  · refine ⟨yearOfDay (floorDays t) + 1, hlast, ?_, ?_⟩
    · unfold Lib.weekday at *
      omega
    · unfold Lib.weekday at *
      split_ifs <;> omega
  · apply hasWeek_current
    · unfold Lib.weekday at *
      omega
    · omega
    · unfold Lib.weekday at *
      split_ifs <;> omega

lemma weekOfYear_hasWeek (h : SupportedYear (calendarYear t)) : HasWeek (floorDays t) (weekOfYear date t) := by
  obtain ⟨hlower, hupper⟩ := @yday_bounds t
  have hmonday := firstMonday_eq (yearOfDay (floorDays t))
  have hmondayNext := firstMonday_eq (yearOfDay (floorDays t) + 1)
  unfold weekOfYear
  rw [tmYday_eq date h]
  split_ifs with hjanuary hdecember
  · exact getJanWeekOfYear_hasWeek date h hjanuary
  · exact getDecWeekOfYear_hasWeek date h ((december_iff date h).mp hdecember)
  · rw [december_iff date h] at hdecember
    apply hasWeek_current
    · unfold Lib.weekday at *
      omega
    · unfold Lib.weekday at *
      omega
    · exact weekOfCurrentYear_eq date h (by omega)

/-- The extracted week is that of ISO 8601, and timestamps that truncate to the same week have the same
number. -/
theorem extractWeek_hasWeek :
    (∀ t : SignedInt 64, -32000 ≤ calendarYear t.val → calendarYear t.val ≤ 32000 →
      HasWeek (floorDays t.val) (extractWeek date t.val)) ∧
    ∀ t u : SignedInt 64, -32000 ≤ calendarYear t.val → calendarYear t.val ≤ 32000 → -32000 ≤ calendarYear u.val →
      calendarYear u.val ≤ 32000 → dateTruncWeek date t.val = dateTruncWeek date u.val →
      extractWeek date t.val = extractWeek date u.val := by
  have hweek : ∀ t : SignedInt 64, -32000 ≤ calendarYear t.val → calendarYear t.val ≤ 32000 →
      HasWeek (floorDays t.val) (extractWeek date t.val) := by
    intro t h1 h2
    exact weekOfYear_hasWeek date (supportedYear_of_range ⟨by omega, h2⟩)
  refine ⟨hweek, ?_⟩
  intro t u ht1 ht2 hu1 hu2 hsame
  apply (hweek t ht1 ht2).unique (hweek u hu1 hu2)
  rw [dateTruncWeek_eq date (supportedYear_of_range ⟨by omega, ht2⟩),
    dateTruncWeek_eq date (supportedYear_of_range ⟨by omega, hu2⟩), microsInDay_eq] at hsame
  omega

end

/-- 2021-01-03 is in week 53, as 2020-12-31 is. -/
theorem extractWeek_newYear2021 :
    HasWeek 18630 53 ∧ extractWeek gregorian (18630 * microsInDay) = extractWeek gregorian (18627 * microsInDay) := by
  have hfirst := (extractWeek_hasWeek gregorian).1 ⟨18630 * microsInDay, by decide⟩ (by decide) (by decide)
  have hsame := (extractWeek_hasWeek gregorian).2 ⟨18630 * microsInDay, by decide⟩ ⟨18627 * microsInDay, by decide⟩
    (by decide) (by decide) (by decide) (by decide) (by decide +kernel)
  have hdays : floorDays (18630 * microsInDay) = 18630 := by decide
  have hweek : extractWeek gregorian (18630 * microsInDay) = 53 := by decide +kernel
  rw [hdays, hweek] at hfirst
  exact ⟨hfirst, hsame⟩

end IcebergCxx.Proofs
