import IcebergCxx.FilterNode
import IcebergCxx.Lib.CivilDate

/-!
# Dates and timestamps in the row filter

`filter/row_filter/extend_gandiva`: the functions on dates and timestamps that the row filter adds
to Gandiva. A timestamp is a count of microseconds, a date a count of days, both since 1970-01-01.
The integers that the functions return as a `double` are below `2^53`, so they are exact and stay
integers here. A signed operation that overflows wraps around.
-/

namespace IcebergCxx

open Lib

namespace TemporalOps

def microsInMilli : Int := 1000

def microsInSecond : Int := 1000 * microsInMilli

def microsInMinute : Int := 60 * microsInSecond

def microsInHour : Int := 60 * microsInMinute

/-- The years of the date library, which holds them in a `short`. -/
def SupportedYear (year : Int) : Prop := -32767 ≤ year ∧ year ≤ 32767

/-- The conversions of `arrow/vendored/datetime/date.h` between days and dates of the proleptic
Gregorian calendar. A day of a month that the month does not have is counted on from the month's
first day. -/
structure DateLibrary where
  yearMonthDay : Int → YearMonthDay
  sysDays : YearMonthDay → Int
  weekday : Int → Int
  yearMonthDay_eq : ∀ days, SupportedYear (1970 + yearOfDay days) → yearMonthDay days = civilDate days
  sysDays_eq : ∀ ymd, SupportedYear ymd.year → 1 ≤ ymd.month → ymd.month ≤ 12 → 1 ≤ ymd.day → ymd.day ≤ 31 →
    sysDays ymd = Lib.sysDays ymd.year ymd.month ymd.day
  weekday_eq : ∀ days, weekday days = Lib.weekday days

/-- The calendar itself, for any year. -/
def gregorian : DateLibrary where
  yearMonthDay := civilDate
  sysDays ymd := Lib.sysDays ymd.year ymd.month ymd.day
  weekday := Lib.weekday
  yearMonthDay_eq _ _ := rfl
  sysDays_eq _ _ _ _ _ _ := rfl
  weekday_eq _ := rfl

/-! ### `EpochTimePointMicros` -/

/-- `date::floor<days>`. -/
def floorDays (tp : Int) : Int := tp / microsInDay

def timeOfDay (tp : Int) : Int := wrapInt64 (tp - wrapInt64 (floorDays tp * microsInDay))

def tmHour (tp : Int) : Int := (timeOfDay tp).tdiv microsInHour

def tmMin (tp : Int) : Int := ((timeOfDay tp).tmod microsInHour).tdiv microsInMinute

/-- The time point of a day and a time of day. -/
def timePoint (days timeOfDay : Int) : Int := wrapInt64 (wrapInt64 (days * microsInDay) + timeOfDay)

def clearTimeOfDay (tp : Int) : Int := wrapInt64 (tp - timeOfDay tp)

/-- `ymd + years`. -/
def plusYears (ymd : YearMonthDay) (numYears : Int) : YearMonthDay := { ymd with year := ymd.year + numYears }

/-- `ymd + months`: the month after that many months, the day as it is. -/
def plusMonths (ymd : YearMonthDay) (numMonths : Int) : YearMonthDay where
  year := ymd.year + (ymd.month - 1 + numMonths) / 12
  month := (ymd.month - 1 + numMonths) % 12 + 1
  day := ymd.day

/-- `IsLeapYear` and `is_leap_year`. -/
def isLeapYear (yy : Int) : Bool :=
  if yy.tmod 4 ≠ 0 then false
  else if yy.tmod 400 = 0 then true
  else yy.tmod 100 ≠ 0

def daysInAMonth : List (List Int) :=
  [[31, 28, 31, 30, 31, 30, 31, 31, 30, 31, 30, 31],
    [31, 29, 31, 30, 31, 30, 31, 31, 30, 31, 30, 31]]

def lastPossibleDayInMonth (year month : Int) : Int :=
  ((daysInAMonth.getD (if isLeapYear year then 1 else 0) []).getD (month - 1).toNat 0)

def didDaysOverflow (ymd : YearMonthDay) : Bool := ymd.day > lastPossibleDayInMonth ymd.year ymd.month

section

variable (date : DateLibrary)

def yearMonthDay (tp : Int) : YearMonthDay := date.yearMonthDay (floorDays tp)

def tmYear (tp : Int) : Int := (yearMonthDay date tp).year - 1900

def tmMon (tp : Int) : Int := (yearMonthDay date tp).month - 1

def tmYday (tp : Int) : Int := floorDays tp - date.sysDays ⟨(yearMonthDay date tp).year, 1, 1⟩

def tmMday (tp : Int) : Int := (yearMonthDay date tp).day

def tmWday (tp : Int) : Int := date.weekday (floorDays tp)

def addYears (tp numYears : Int) : Int :=
  timePoint (date.sysDays (plusYears (yearMonthDay date tp) numYears)) (timeOfDay tp)

def addDays (tp numDays : Int) : Int := timePoint (date.sysDays (yearMonthDay date tp) + numDays) (timeOfDay tp)

def addMonths (tp numMonths : Int) : Int :=
  let ymd := plusMonths (yearMonthDay date tp) numMonths
  let tp' := timePoint (date.sysDays ymd) (timeOfDay tp)
  if didDaysOverflow ymd then addDays date tp' (lastPossibleDayInMonth ymd.year ymd.month - ymd.day) else tp'

/-! ### Week of the year -/

/-- `JAN1_WDAY`. -/
def jan1Wday (tp : Int) : Int := (tmWday date tp - (tmYday date tp).tmod 7 + 7).tmod 7

def weekOfCurrentYear (tp : Int) : Int :=
  let wday := jan1Wday date tp
  if wday = 1 ∨ wday = 2 ∨ wday = 3 ∨ wday = 4 then (tmYday date tp + wday - 1).tdiv 7 + 1
  else if wday = 5 ∨ wday = 6 then (tmYday date tp - (8 - wday)).tdiv 7 + 1
  else if wday = 0 then (tmYday date tp - 1).tdiv 7 + 1
  else 0

/-- January 1 to 3. -/
def getJanWeekOfYear (tp : Int) : Int :=
  let wday := jan1Wday date tp
  if wday ≥ 1 ∧ wday ≤ 4 then 1
  else if wday = 5 then 53
  else if wday = 0 then if tmMday date tp > 1 then 1 else 52
  else if tmMday date tp = 3 then 1
  else if isLeapYear (1900 + tmYear date tp - 1) then 53
  else 52

/-- December 29 to 31. -/
def getDecWeekOfYear (tp : Int) : Int :=
  let nextJan1Wday := (tmWday date tp + (31 - tmMday date tp) + 1).tmod 7
  if nextJan1Wday = 4 then 1
  else if nextJan1Wday = 3 then if tmMday date tp ≠ 29 then 1 else weekOfCurrentYear date tp
  else if nextJan1Wday = 2 then if tmMday date tp = 31 then 1 else weekOfCurrentYear date tp
  else weekOfCurrentYear date tp

def weekOfYear (tp : Int) : Int :=
  if tmYday date tp < 3 then getJanWeekOfYear date tp
  else if tmMon date tp = 11 ∧ tmMday date tp ≥ 29 then getDecWeekOfYear date tp
  else weekOfCurrentYear date tp

/-! ### Fields of a timestamp -/

def extractWeek (timestamp : Int) : Int := weekOfYear date timestamp

end

def extractHour (timestamp : Int) : Int := tmHour timestamp

def extractMinute (timestamp : Int) : Int := tmMin timestamp

def extractMicroseconds (timestamp : Int) : Int :=
  let remainder := timestamp.tmod microsInMinute
  let micros := if remainder < 0 then remainder + microsInMinute else remainder
  micros.tdiv microsInSecond * 1000000 + micros.tmod microsInSecond

/-! ### Truncation -/

/-- `DateTruncFixedUnit`. -/
def dateTruncFixedUnit (microsInUnit timestamp : Int) : Int :=
  if timestamp < 0 then wrapInt64 (((timestamp + 1).tdiv microsInUnit - 1) * microsInUnit)
  else wrapInt64 (timestamp.tdiv microsInUnit * microsInUnit)

def dateTruncDay (timestamp : Int) : Int := dateTruncFixedUnit microsInDay timestamp

def dateTruncHour (timestamp : Int) : Int := dateTruncFixedUnit microsInHour timestamp

def dateTruncMinute (timestamp : Int) : Int := dateTruncFixedUnit microsInMinute timestamp

def dateTruncSecond (timestamp : Int) : Int := dateTruncFixedUnit microsInSecond timestamp

def dateTruncMilliseconds (timestamp : Int) : Int := dateTruncFixedUnit microsInMilli timestamp

section

variable (date : DateLibrary)

/-- `DateTruncYearUnits`. -/
def dateTruncYearUnits (yearsInUnit offBy timestamp : Int) : Int :=
  let ndaysToTrunc := tmMday date timestamp - 1
  let nmonthsToTrunc := tmMon date timestamp
  let year := (1900 + tmYear date timestamp - offBy).tdiv yearsInUnit * yearsInUnit + offBy
  let nyearsToTrunc := tmYear date timestamp - (year - 1900)
  clearTimeOfDay
    (addYears date (addMonths date (addDays date timestamp (-ndaysToTrunc)) (-nmonthsToTrunc)) (-nyearsToTrunc))

/-- `DateTruncMonthUnits`. -/
def dateTruncMonthUnits (monthsInUnit timestamp : Int) : Int :=
  let ndaysToTrunc := tmMday date timestamp - 1
  let nmonthsToTrunc := tmMon date timestamp - (tmMon date timestamp).tdiv monthsInUnit * monthsInUnit
  clearTimeOfDay (addMonths date (addDays date timestamp (-ndaysToTrunc)) (-nmonthsToTrunc))

def dateTruncMillennium (timestamp : Int) : Int := dateTruncYearUnits date 1000 1 timestamp

def dateTruncCentury (timestamp : Int) : Int := dateTruncYearUnits date 100 1 timestamp

def dateTruncDecade (timestamp : Int) : Int := dateTruncYearUnits date 10 0 timestamp

def dateTruncYear (timestamp : Int) : Int := dateTruncMonthUnits date 12 timestamp

def dateTruncQuarter (timestamp : Int) : Int := dateTruncMonthUnits date 3 timestamp

def dateTruncMonth (timestamp : Int) : Int := dateTruncMonthUnits date 1 timestamp

def dateTruncWeek (timestamp : Int) : Int :=
  let ndaysToTrunc := if tmWday date timestamp = 0 then 6 else tmWday date timestamp - 1
  clearTimeOfDay (addDays date timestamp (-ndaysToTrunc))

end

inductive TruncUnit
  | millennium | century | decade | year | quarter | month | week | day | hour | minute | second | milliseconds
  deriving DecidableEq

/-- The functions `DateTrunc*`. -/
def dateTrunc (date : DateLibrary) : TruncUnit → Int → Int
  | .millennium => dateTruncMillennium date
  | .century => dateTruncCentury date
  | .decade => dateTruncDecade date
  | .year => dateTruncYear date
  | .quarter => dateTruncQuarter date
  | .month => dateTruncMonth date
  | .week => dateTruncWeek date
  | .day => dateTruncDay
  | .hour => dateTruncHour
  | .minute => dateTruncMinute
  | .second => dateTruncSecond
  | .milliseconds => dateTruncMilliseconds

/-! ### Casts and comparisons -/

def castDateFromTimestamp (timestamp : Int) : Int := wrapInt32 (timestamp.tdiv microsInDay)

/-- The timestamp that a date is compared as. -/
def dateMicros (date : Int) : Int := wrapInt64 (date * microsInDay)

def lessThanDateTimestamp (date timestamp : Int) : Bool := dateMicros date < timestamp

def lessThanOrEqualToDateTimestamp (date timestamp : Int) : Bool := dateMicros date ≤ timestamp

def greaterThanDateTimestamp (date timestamp : Int) : Bool := dateMicros date > timestamp

def greaterThanOrEqualToDateTimestamp (date timestamp : Int) : Bool := dateMicros date ≥ timestamp

def equalDateTimestamp (date timestamp : Int) : Bool := dateMicros date = timestamp

def notEqualDateTimestamp (date timestamp : Int) : Bool := dateMicros date ≠ timestamp

def lessThanTimestampDate (timestamp date : Int) : Bool := timestamp < dateMicros date

def lessThanOrEqualToTimestampDate (timestamp date : Int) : Bool := timestamp ≤ dateMicros date

def greaterThanTimestampDate (timestamp date : Int) : Bool := timestamp > dateMicros date

def greaterThanOrEqualToTimestampDate (timestamp date : Int) : Bool := timestamp ≥ dateMicros date

def equalTimestampDate (timestamp date : Int) : Bool := timestamp = dateMicros date

def notEqualTimestampDate (timestamp date : Int) : Bool := timestamp ≠ dateMicros date

end TemporalOps

end IcebergCxx
