import Mathlib

/-!
# The proleptic Gregorian calendar

Days are counted from 1970-01-01. `sysDays` is the number of a day of the calendar; the first days
of years and of months form strictly increasing sequences, so that a count of years or months has
exactly one interval of days.
-/

namespace IcebergCxx.Lib

def isLeapYear (year : Int) : Bool := year % 4 = 0 ∧ (year % 100 ≠ 0 ∨ year % 400 = 0)

/-- The days from 0001-01-01 to the first day of a year. -/
def daysBeforeYear (year : Int) : Int := 365 * (year - 1) + (year - 1) / 4 - (year - 1) / 100 + (year - 1) / 400

/-- The days of a year before the first day of a month. -/
def daysBeforeMonth (leap : Bool) (month : Int) : Int :=
  let day29 := if leap then 1 else 0
  if month ≤ 1 then 0
  else if month = 2 then 31
  else if month = 3 then 59 + day29
  else if month = 4 then 90 + day29
  else if month = 5 then 120 + day29
  else if month = 6 then 151 + day29
  else if month = 7 then 181 + day29
  else if month = 8 then 212 + day29
  else if month = 9 then 243 + day29
  else if month = 10 then 273 + day29
  else if month = 11 then 304 + day29
  else 334 + day29

/-- The number of a day of the calendar, 0 for 1970-01-01. -/
def sysDays (year month day : Int) : Int :=
  daysBeforeYear year + daysBeforeMonth (isLeapYear year) month + (day - 1) - daysBeforeYear 1970

/-- The first day of the year `1970 + years`. -/
def yearStart (years : Int) : Int := sysDays (1970 + years) 1 1

/-- The first day of the month that is `months` after January 1970. -/
def monthStart (months : Int) : Int := sysDays (1970 + months / 12) (1 + months % 12) 1

lemma daysBeforeMonth_one (leap : Bool) : daysBeforeMonth leap 1 = 0 := rfl

lemma daysBeforeYear_succ (year : Int) :
    daysBeforeYear (year + 1) = daysBeforeYear year + (if isLeapYear year then 366 else 365) := by
  have hleap : isLeapYear year = true ↔ year % 4 = 0 ∧ (year % 100 ≠ 0 ∨ year % 400 = 0) := by
    simp [isLeapYear]
  unfold daysBeforeYear
  split_ifs with h
  · rw [hleap] at h
    omega
  · rw [hleap] at h
    omega

lemma yearStart_eq (years : Int) : yearStart years = daysBeforeYear (1970 + years) - daysBeforeYear 1970 := by
  unfold yearStart sysDays
  rw [daysBeforeMonth_one]
  omega

lemma yearStart_succ (years : Int) : yearStart years + 365 ≤ yearStart (years + 1) := by
  rw [yearStart_eq, yearStart_eq, ← add_assoc, daysBeforeYear_succ]
  split_ifs <;> omega

lemma yearStart_strictMono : StrictMono yearStart :=
  strictMono_int_of_lt_succ (fun years => by have := yearStart_succ years; omega)

/-- Within a year a month has at least 28 days. -/
lemma daysBeforeMonth_succ (leap : Bool) {month : Int} (h1 : 1 ≤ month) (h2 : month ≤ 11) :
    daysBeforeMonth leap month + 28 ≤ daysBeforeMonth leap (month + 1) := by
  unfold daysBeforeMonth
  interval_cases month <;> cases leap <;> decide

lemma daysBeforeMonth_twelve (leap : Bool) : daysBeforeMonth leap 12 + 28 ≤ 365 := by
  cases leap <;> decide

lemma monthStart_succ (months : Int) : monthStart months + 28 ≤ monthStart (months + 1) := by
  unfold monthStart sysDays
  by_cases h : months % 12 = 11
  · have hdiv : (months + 1) / 12 = months / 12 + 1 := by omega
    have hmod : 1 + (months + 1) % 12 = 1 := by omega
    rw [hdiv, hmod, h, daysBeforeMonth_one, ← add_assoc, daysBeforeYear_succ]
    have := daysBeforeMonth_twelve (isLeapYear (1970 + months / 12))
    norm_num at this ⊢
    split_ifs <;> omega
  · have hdiv : (months + 1) / 12 = months / 12 := by omega
    have hmod : 1 + (months + 1) % 12 = 1 + months % 12 + 1 := by omega
    rw [hdiv, hmod]
    have := @daysBeforeMonth_succ (isLeapYear (1970 + months / 12)) (1 + months % 12) (by omega) (by omega)
    omega

lemma monthStart_strictMono : StrictMono monthStart :=
  strictMono_int_of_lt_succ (fun months => by have := monthStart_succ months; omega)

example : sysDays 1970 1 1 = 0 ∧ sysDays 2000 3 1 = 11017 ∧ sysDays 1969 12 31 = -1 := by decide

/-! ### Seconds as a calendar time -/

/-- The years from 1970 to the year of a day; an estimate by the mean year is off by one at most. -/
def yearOfDay (days : Int) : Int :=
  let years := days * 400 / 146097
  if days < yearStart years then years - 1 else if yearStart (years + 1) ≤ days then years + 1 else years

/-- The months from January 1970 to the month of a day. -/
def monthOfDay (days : Int) : Int :=
  let months := 12 * yearOfDay days
  months + (((List.range 12).filter (fun k : Nat => monthStart (months + k) ≤ days)).length - 1)

structure CivilTime where
  year : Int
  month : Int
  day : Int
  hour : Int
  deriving DecidableEq

/-- The time of the calendar, in UTC, at some seconds after 1970-01-01. -/
def civilTime (seconds : Int) : CivilTime where
  year := 1970 + yearOfDay (seconds / 86400)
  month := 1 + monthOfDay (seconds / 86400) % 12
  day := 1 + (seconds / 86400 - monthStart (monthOfDay (seconds / 86400)))
  hour := seconds % 86400 / 3600

end IcebergCxx.Lib
