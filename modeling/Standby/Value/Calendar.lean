/-!
# The proleptic Gregorian calendar

Days are counted from the first of January 1970, in both directions and without end. A count
becomes a date by splitting it into eras of 400 years that start on the first of March: within
such a year the leap day comes last, so the months before it have fixed lengths. Counting back
undoes the split (`toDays_ofDays`).
-/

set_option autoImplicit false

namespace Standby

/-- A calendar date. -/
structure Date where
  /-- The year, with a year zero and years before it. -/
  year : Int
  /-- The month, from 1. -/
  month : Int
  /-- The day of the month, from 1. -/
  day : Int
  deriving DecidableEq

namespace Date

/-- Years divisible by four are leap years, centuries only every fourth time. -/
def isLeapYear (year : Int) : Bool :=
  year % 4 == 0 && (year % 100 != 0 || year % 400 == 0)

/-- The number of days of a month, zero for a number that is no month. -/
def daysInMonth (year month : Int) : Int :=
  if month = 2 then (if isLeapYear year then 29 else 28)
  else if month = 4 ∨ month = 6 ∨ month = 9 ∨ month = 11 then 30
  else if 1 ≤ month ∧ month ≤ 12 then 31
  else 0

/-- Whether the calendar has this date. -/
def isValid (date : Date) : Bool :=
  1 ≤ date.day && date.day ≤ daysInMonth date.year date.month

/-! ## Years that start in March -/

/-- Days from the start of the calendar's eras, the first of March of year zero, to 1970. -/
def eraOrigin : Int := 719468

/-- Days of an era before one of its 400 years. -/
def daysBeforeYear (yearOfEra : Int) : Int :=
  365 * yearOfEra + yearOfEra / 4 - yearOfEra / 100

/-- The year of an era that has a day of the era: first its century, then its four years, then
its year among them. The last century and the last of four years are a day longer. -/
def yearOfDay (dayOfEra : Int) : Int :=
  let century := min (dayOfEra / 36524) 3
  let dayOfCentury := dayOfEra - century * 36524
  century * 100 + dayOfCentury / 1461 * 4 + min (dayOfCentury % 1461 / 365) 3

/-- Days of a year before one of its months, both counted from March. -/
def daysBeforeMonth (month : Int) : Int := (153 * month + 2) / 5

/-- The month, counted from March as zero, that has a day of such a year. -/
def monthOfDay (dayOfYear : Int) : Int := (5 * dayOfYear + 2) / 153

/-- The date in a year that starts in March, the month counted from March as zero. -/
def ofMarch (year month day : Int) : Date :=
  if month < 10 then ⟨year, month + 3, day⟩ else ⟨year + 1, month - 9, day⟩

/-- The year that started in the March before a date. -/
def marchYear (date : Date) : Int := if date.month ≤ 2 then date.year - 1 else date.year

/-- The month of a date, counted from March as zero. -/
def marchMonth (date : Date) : Int :=
  if date.month ≤ 2 then date.month + 9 else date.month - 3

/-! ## Dates and counts of days -/

/-- The number of days from the first of January 1970 to a date. -/
def toDays (date : Date) : Int :=
  date.marchYear / 400 * 146097 + daysBeforeYear (date.marchYear % 400) +
    daysBeforeMonth date.marchMonth + date.day - 1 - eraOrigin

/-- The date that lies a number of days after the first of January 1970. -/
def ofDays (days : Int) : Date :=
  let era := (days + eraOrigin) / 146097
  let dayOfEra := (days + eraOrigin) % 146097
  let dayOfYear := dayOfEra - daysBeforeYear (yearOfDay dayOfEra)
  let month := monthOfDay dayOfYear
  ofMarch (yearOfDay dayOfEra + era * 400) month (dayOfYear - daysBeforeMonth month + 1)

theorem marchYear_ofMarch {year month day : Int} (isMonth : 0 ≤ month ∧ month < 12) :
    (ofMarch year month day).marchYear = year := by
  unfold ofMarch marchYear
  split <;> simp only <;> split <;> omega

theorem marchMonth_ofMarch {year month day : Int} (isMonth : 0 ≤ month ∧ month < 12) :
    (ofMarch year month day).marchMonth = month := by
  unfold ofMarch marchMonth
  split <;> simp only <;> split <;> omega

theorem day_ofMarch (year month day : Int) : (ofMarch year month day).day = day := by
  unfold ofMarch
  split <;> rfl

/-- A day of an era lies in one of its 400 years. -/
theorem yearOfDay_bounds {dayOfEra : Int} (inEra : 0 ≤ dayOfEra ∧ dayOfEra < 146097) :
    0 ≤ yearOfDay dayOfEra ∧ yearOfDay dayOfEra < 400 := by
  unfold yearOfDay
  generalize hcentury : min (dayOfEra / 36524) 3 = century
  generalize hday : dayOfEra - century * 36524 = dayOfCentury
  generalize hyear : min (dayOfCentury % 1461 / 365) 3 = year
  simp only [hday, hyear]
  omega

/-- A day of an era lies among the days of its year. -/
theorem dayOfYear_bounds {dayOfEra : Int} (inEra : 0 ≤ dayOfEra ∧ dayOfEra < 146097) :
    0 ≤ dayOfEra - daysBeforeYear (yearOfDay dayOfEra) ∧
      dayOfEra - daysBeforeYear (yearOfDay dayOfEra) < 366 := by
  unfold daysBeforeYear yearOfDay
  generalize hcentury : min (dayOfEra / 36524) 3 = century
  generalize hday : dayOfEra - century * 36524 = dayOfCentury
  generalize hyear : min (dayOfCentury % 1461 / 365) 3 = year
  simp only [hday, hyear]
  generalize hfour : dayOfCentury / 1461 = fourYears
  have century0 : 0 ≤ century ∧ century ≤ 3 := by omega
  have fourYears0 : 0 ≤ fourYears ∧ fourYears < 25 := by omega
  have year0 : 0 ≤ year ∧ year ≤ 3 := by omega
  have leapYears : (century * 100 + fourYears * 4 + year) / 4 = century * 25 + fourYears := by
    omega
  have centuries : (century * 100 + fourYears * 4 + year) / 100 = century := by omega
  rw [leapYears, centuries]
  omega

/-- Counting the days of the date found gives the count back. -/
theorem toDays_ofDays (days : Int) : (ofDays days).toDays = days := by
  have inEra : 0 ≤ (days + eraOrigin) % 146097 ∧ (days + eraOrigin) % 146097 < 146097 := by
    omega
  have year := yearOfDay_bounds inEra
  have day := dayOfYear_bounds inEra
  have month :
      0 ≤ monthOfDay ((days + eraOrigin) % 146097 -
            daysBeforeYear (yearOfDay ((days + eraOrigin) % 146097))) ∧
        monthOfDay ((days + eraOrigin) % 146097 -
            daysBeforeYear (yearOfDay ((days + eraOrigin) % 146097))) < 12 := by
    unfold monthOfDay
    omega
  simp only [ofDays, toDays, marchYear_ofMarch month, marchMonth_ofMarch month, day_ofMarch]
  have yearPart : (yearOfDay ((days + eraOrigin) % 146097) +
      (days + eraOrigin) / 146097 * 400) % 400 = yearOfDay ((days + eraOrigin) % 146097) := by
    omega
  rw [yearPart]
  omega

end Date

end Standby
