/-!
# Calendar dates

Dates of the Gregorian calendar, extended to all years from -262143 to 262142.
A date is its year, month and day; `dayNumber` counts the days from 1 January of
the year 1, which is day 1, so that adding days is adding integers.

Adding months keeps the day where the target month has it and takes the last day
of that month otherwise. Both additions fail outside the range of years.
-/

namespace CaseAccess

def isLeapYear (year : Int) : Bool :=
  year % 4 = 0 && (year % 100 ≠ 0 || year % 400 = 0)

/-- The length of a month, numbered from 1. -/
def daysInMonth (year : Int) (month : Nat) : Nat :=
  if month = 2 then (if isLeapYear year then 29 else 28)
  else if month = 4 ∨ month = 6 ∨ month = 9 ∨ month = 11 then 30
  else 31

/-- The first and the last year of the calendar. -/
def firstYear : Int := -262143
def lastYear : Int := 262142

/-- Whether year, month and day name a date of the calendar. -/
def IsDate (year : Int) (month day : Nat) : Prop :=
  firstYear ≤ year ∧ year ≤ lastYear ∧ 1 ≤ month ∧ month ≤ 12
    ∧ 1 ≤ day ∧ day ≤ daysInMonth year month

instance (year : Int) (month day : Nat) : Decidable (IsDate year month day) :=
  inferInstanceAs (Decidable (_ ∧ _))

structure Date where
  year : Int
  month : Nat
  day : Nat
  isDate : IsDate year month day
  deriving DecidableEq

namespace Date

instance : Repr Date := ⟨fun d n => reprPrec (d.year, d.month, d.day) n⟩

/-- The date of that year, month and day, if there is one. -/
def of? (year : Int) (month day : Nat) : Option Date :=
  if h : IsDate year month day then some ⟨year, month, day, h⟩ else none

/-- The number of days before 1 January of a year, counted from the year 1. -/
def daysBeforeYear (year : Int) : Int :=
  let y := year - 1
  365 * y + y / 4 - y / 100 + y / 400

/-- The number of days of a year before that month. -/
def daysBeforeMonth (year : Int) (month : Nat) : Nat :=
  (List.range (month - 1)).foldl (fun days m => days + daysInMonth year (m + 1)) 0

/-- The number of the day, from 1 January of the year 1. -/
def dayNumber (d : Date) : Int :=
  daysBeforeYear d.year + daysBeforeMonth d.year d.month + d.day

instance : LE Date := ⟨fun a b => a.dayNumber ≤ b.dayNumber⟩
instance : LT Date := ⟨fun a b => a.dayNumber < b.dayNumber⟩
instance (a b : Date) : Decidable (a ≤ b) :=
  inferInstanceAs (Decidable (a.dayNumber ≤ b.dayNumber))
instance (a b : Date) : Decidable (a < b) :=
  inferInstanceAs (Decidable (a.dayNumber < b.dayNumber))

/-- The later of two dates. -/
def latest (a b : Date) : Date := if a ≤ b then b else a

/-- The year that a day number falls in. The first guess divides by the mean length
of a year and is off by one at most. -/
def yearOfDay (n : Int) : Int :=
  let guess := (n - 1) * 400 / 146097 + 1
  if n ≤ daysBeforeYear guess then guess - 1
  else if daysBeforeYear (guess + 1) < n then guess + 1
  else guess

/-- The month and day of the `n`th day that is left when the year has come as far
as `month`; `fuel` months are left. -/
def monthOfDay (year : Int) : Nat → Nat → Nat → Nat × Nat
  | 0, month, n => (month, n)
  | fuel + 1, month, n =>
      if n ≤ daysInMonth year month then (month, n)
      else monthOfDay year fuel (month + 1) (n - daysInMonth year month)

/-- The date of a day number. -/
def ofDayNumber? (n : Int) : Option Date :=
  let year := yearOfDay n
  let (month, day) := monthOfDay year 11 1 (n - daysBeforeYear year).toNat
  of? year month day

/-- The date that many months later. -/
def addMonths? (d : Date) (months : Nat) : Option Date :=
  let count := d.year * 12 + (d.month - 1 : Nat) + months
  let year := count / 12
  let month := (count % 12).toNat + 1
  of? year month (min d.day (daysInMonth year month))

/-- The date that many days later. -/
def addDays? (d : Date) (days : Nat) : Option Date :=
  ofDayNumber? (d.dayNumber + days)

end Date

end CaseAccess
