import IcebergCxx.Lib.Calendar

/-!
# Dates of the calendar

The date of a day, and the facts that determine it: the year and the month of a day are those whose
interval of days contains it. Week 1 of a year is the week, from Monday to Sunday, that contains the
first Thursday of the year.
-/

namespace IcebergCxx.Lib

/-! ### The year of a day -/

lemma yearStart_lower (y : Int) : 146097 * y - 800 ≤ 400 * yearStart y := by
  rw [yearStart_eq]
  unfold daysBeforeYear
  omega

lemma yearStart_upper (y : Int) : 400 * yearStart y ≤ 146097 * y + 800 := by
  rw [yearStart_eq]
  unfold daysBeforeYear
  omega

lemma yearOfDay_spec (days : Int) :
    yearStart (yearOfDay days) ≤ days ∧ days < yearStart (yearOfDay days + 1) := by
  have hlower := yearStart_upper (days * 400 / 146097 - 1)
  have hupper := yearStart_lower (days * 400 / 146097 + 2)
  unfold yearOfDay
  simp only
  split_ifs with h1 h2
  · rw [sub_add_cancel]
    omega
  · rw [add_assoc]
    exact ⟨h2, by norm_num; omega⟩
  · omega

/-! ### The month of a day -/

lemma monthStart_year (y : Int) : monthStart (12 * y) = yearStart y := by
  have hdiv : 12 * y / 12 = y := by omega
  have hmod : 1 + 12 * y % 12 = 1 := by omega
  rw [monthStart, hdiv, hmod, yearStart]

lemma length_filter_range {n k : Nat} {p : Nat → Bool} (hk : k < n) (hp : ∀ j, p j = true ↔ j ≤ k) :
    ((List.range n).filter p).length = k + 1 := by
  have hsplit : n = (k + 1) + (n - (k + 1)) := by omega
  have hfirst : (List.range (k + 1)).filter p = List.range (k + 1) := by
    apply List.filter_eq_self.mpr
    intro j hj
    have := List.mem_range.mp hj
    exact (hp j).mpr (by omega)
  have hrest : ((List.range (n - (k + 1))).map (fun j => k + 1 + j)).filter p = [] := by
    apply List.filter_eq_nil_iff.mpr
    intro j hj
    obtain ⟨i, -, rfl⟩ := List.mem_map.mp hj
    rw [hp]
    omega
  rw [hsplit, List.range_add, List.filter_append, hfirst, hrest, List.append_nil, List.length_range]

/-- Some month of the year contains the day. -/
lemma exists_month (days : Int) : ∃ k : Nat, k < 12 ∧ monthStart (12 * yearOfDay days + k) ≤ days ∧
    days < monthStart (12 * yearOfDay days + k + 1) := by
  obtain ⟨hstart, hend⟩ := yearOfDay_spec days
  rw [← monthStart_year] at hstart hend
  by_contra hnone
  have hall : ∀ k : Nat, k ≤ 12 → monthStart (12 * yearOfDay days + k) ≤ days := by
    intro k
    induction k with
    | zero =>
      intro _
      simpa using hstart
    | succ k ih =>
      intro hk
      by_contra hlt
      apply hnone
      refine ⟨k, by omega, ih (by omega), ?_⟩
      push_cast at hlt
      rw [← add_assoc] at hlt
      omega
  have h12 := hall 12 le_rfl
  have heq : 12 * yearOfDay days + (12 : Nat) = 12 * (yearOfDay days + 1) := by
    push_cast
    omega
  rw [heq] at h12
  omega

lemma monthOfDay_spec (days : Int) :
    monthStart (monthOfDay days) ≤ days ∧ days < monthStart (monthOfDay days + 1) ∧
      monthOfDay days / 12 = yearOfDay days := by
  obtain ⟨k, hk, hstart, hend⟩ := exists_month days
  have hcount := @length_filter_range 12 k (fun j => decide (monthStart (12 * yearOfDay days + j) ≤ days)) hk (by
    intro j
    rw [decide_eq_true_iff]
    constructor
    · intro hj
      have := monthStart_strictMono.lt_iff_lt.mp (lt_of_le_of_lt hj hend)
      omega
    · intro hj
      have := monthStart_strictMono.monotone (show 12 * yearOfDay days + (j : Int) ≤ 12 * yearOfDay days + k by omega)
      omega)
  have hmonth : monthOfDay days = 12 * yearOfDay days + k := by
    unfold monthOfDay
    simp only [hcount]
    push_cast
    omega
  rw [hmonth]
  exact ⟨hstart, hend, by omega⟩

lemma monthOfDay_eq {days m : Int} (h1 : monthStart m ≤ days) (h2 : days < monthStart (m + 1)) :
    monthOfDay days = m := by
  obtain ⟨h3, h4, -⟩ := monthOfDay_spec days
  have hle := monthStart_strictMono.lt_iff_lt.mp (lt_of_le_of_lt h3 h2)
  have hge := monthStart_strictMono.lt_iff_lt.mp (lt_of_le_of_lt h1 h4)
  omega

lemma monthOfDay_monthStart (m : Int) : monthOfDay (monthStart m) = m :=
  monthOfDay_eq le_rfl (monthStart_strictMono (by omega))

lemma yearOfDay_monthStart (m : Int) : yearOfDay (monthStart m) = m / 12 := by
  rw [← (monthOfDay_spec (monthStart m)).2.2, monthOfDay_monthStart]

/-! ### Dates -/

structure YearMonthDay where
  year : Int
  month : Int
  day : Int
  deriving DecidableEq

/-- The date of a day. -/
def civilDate (days : Int) : YearMonthDay where
  year := 1970 + yearOfDay days
  month := 1 + monthOfDay days % 12
  day := 1 + (days - monthStart (monthOfDay days))

lemma sysDays_month (m day : Int) : sysDays (1970 + m / 12) (1 + m % 12) day = monthStart m + (day - 1) := by
  unfold monthStart sysDays
  omega

lemma sysDays_civilDate (days : Int) :
    sysDays (civilDate days).year (civilDate days).month (civilDate days).day = days := by
  have hyear := (monthOfDay_spec days).2.2
  simp only [civilDate, ← hyear, sysDays_month]
  omega

lemma civilDate_monthStart (m : Int) : civilDate (monthStart m) = ⟨1970 + m / 12, 1 + m % 12, 1⟩ := by
  rw [civilDate, yearOfDay_monthStart, monthOfDay_monthStart, sub_self, add_zero]

/-! ### Lengths of years and months -/

lemma yearStart_succ_eq (y : Int) : yearStart (y + 1) = yearStart y + (if isLeapYear (1970 + y) then 366 else 365) := by
  rw [yearStart_eq, yearStart_eq, ← add_assoc, daysBeforeYear_succ]
  omega

lemma daysBeforeMonth_succ_le (leap : Bool) {month : Int} (h1 : 1 ≤ month) (h2 : month ≤ 11) :
    daysBeforeMonth leap (month + 1) ≤ daysBeforeMonth leap month + 31 := by
  unfold daysBeforeMonth
  interval_cases month <;> cases leap <;> decide

lemma monthStart_eq (m : Int) :
    monthStart m = yearStart (m / 12) + daysBeforeMonth (isLeapYear (1970 + m / 12)) (1 + m % 12) := by
  rw [yearStart_eq, monthStart, sysDays]
  omega

lemma monthStart_february (y : Int) : monthStart (12 * y + 1) = yearStart y + 31 := by
  have hdiv : (12 * y + 1) / 12 = y := by omega
  have hmod : 1 + (12 * y + 1) % 12 = 2 := by omega
  rw [monthStart_eq, hdiv, hmod]
  rfl

lemma monthStart_december (y : Int) : monthStart (12 * y + 11) = yearStart (y + 1) - 31 := by
  have hdiv : (12 * y + 11) / 12 = y := by omega
  have hmod : 1 + (12 * y + 11) % 12 = 12 := by omega
  rw [monthStart_eq, hdiv, hmod, yearStart_succ_eq]
  cases isLeapYear (1970 + y) <;> norm_num [daysBeforeMonth] <;> omega

lemma monthStart_succ_le (m : Int) : monthStart (m + 1) ≤ monthStart m + 31 := by
  by_cases h : m % 12 = 11
  · have hm : m = 12 * (m / 12) + 11 := by omega
    have hnext : m + 1 = 12 * (m / 12 + 1) := by omega
    rw [hnext, monthStart_year]
    have hdecember := monthStart_december (m / 12)
    rw [← hm] at hdecember
    omega
  · have hdiv : (m + 1) / 12 = m / 12 := by omega
    have hmod : 1 + (m + 1) % 12 = 1 + m % 12 + 1 := by omega
    rw [monthStart_eq, monthStart_eq, hdiv, hmod]
    have := @daysBeforeMonth_succ_le (isLeapYear (1970 + m / 12)) (1 + m % 12) (by omega) (by omega)
    omega

lemma civilDate_bounds (days : Int) : 1 ≤ (civilDate days).month ∧ (civilDate days).month ≤ 12 ∧
    1 ≤ (civilDate days).day ∧ (civilDate days).day ≤ 31 := by
  obtain ⟨h1, h2, -⟩ := monthOfDay_spec days
  have h3 := monthStart_succ_le (monthOfDay days)
  simp only [civilDate]
  omega

/-! ### Weeks -/

/-- The day of the week, 0 for Sunday: 1970-01-01 was a Thursday. -/
def weekday (days : Int) : Int := (days + 4) % 7

/-- The Monday of the week of a day. -/
def mondayOf (days : Int) : Int := days - (weekday days + 6) % 7

/-- The first Thursday of the year `1970 + years`. -/
def firstThursday (years : Int) : Int := yearStart years + (4 - weekday (yearStart years)) % 7

/-- The Monday of week 1 of a year. -/
def firstMonday (years : Int) : Int := mondayOf (firstThursday years)

/-- The number of the week of a day: the weeks of a year are counted from its week 1 up to week 1 of
the next year. -/
def HasWeek (days week : Int) : Prop :=
  ∃ years, firstMonday years ≤ days ∧ days < firstMonday (years + 1) ∧ week = (days - firstMonday years) / 7 + 1

lemma firstMonday_eq (years : Int) :
    firstMonday years = yearStart years + (4 - weekday (yearStart years)) % 7 - 3 := by
  unfold firstMonday mondayOf firstThursday weekday
  omega

lemma weekday_firstMonday (years : Int) : weekday (firstMonday years) = 1 := by
  rw [firstMonday_eq]
  unfold weekday
  omega

lemma firstMonday_strictMono : StrictMono firstMonday := by
  apply strictMono_int_of_lt_succ
  intro years
  have := yearStart_succ years
  rw [firstMonday_eq, firstMonday_eq]
  omega

/-- A day has one week number, which the other days of its week share. -/
lemma HasWeek.unique {days days' week week' : Int} (h : HasWeek days week) (h' : HasWeek days' week')
    (hsame : mondayOf days = mondayOf days') : week = week' := by
  obtain ⟨y, h1, h2, rfl⟩ := h
  obtain ⟨y', h1', h2', rfl⟩ := h'
  have hmonday := weekday_firstMonday y
  have hmonday' := weekday_firstMonday y'
  have hnext := weekday_firstMonday (y + 1)
  have hnext' := weekday_firstMonday (y' + 1)
  unfold mondayOf weekday at *
  have hle : firstMonday y < firstMonday (y' + 1) := by omega
  have hge : firstMonday y' < firstMonday (y + 1) := by omega
  have hy : y = y' := by
    have := firstMonday_strictMono.lt_iff_lt.mp hle
    have := firstMonday_strictMono.lt_iff_lt.mp hge
    omega
  subst hy
  omega

/-! ### Floors -/

/-- Among the values of an increasing sequence at the allowed indices, the greatest one that is not
above `t`. -/
lemma isGreatest_of_strictMono {f : Int → Int} (hf : StrictMono f) {p : Int → Prop} {i t : Int} (hp : p i)
    (hle : f i ≤ t) (hnext : ∀ j, p j → i < j → t < f j) :
    IsGreatest {s | (∃ j, p j ∧ s = f j) ∧ s ≤ t} (f i) := by
  constructor
  · exact ⟨⟨i, hp, rfl⟩, hle⟩
  · rintro s ⟨⟨j, hj, rfl⟩, hs⟩
    by_contra hlt
    have hij : i < j := hf.lt_iff_lt.mp (not_le.mp hlt)
    exact absurd hs (not_le.mpr (hnext j hj hij))

end IcebergCxx.Lib
