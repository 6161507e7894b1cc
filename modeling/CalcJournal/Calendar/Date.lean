/-
CalcJournal.Calendar.Date — days of the Gregorian calendar.

The calendar is proleptic: its leap rule holds for every year, and there is a
year zero. Years run from -262143 to 262142. A `Date` is a year, a month and a
day that exist together, so every value of the type is a day.
-/

namespace CalcJournal

/-! ## Years and months -/

namespace Calendar

/-- The first year of the calendar. -/
def firstYear : Int := -262143

/-- The last year of the calendar. -/
def lastYear : Int := 262142

/-- Every fourth year is a leap year, except centuries that four hundred does not divide. -/
def isLeapYear (year : Int) : Bool :=
  year % 4 = 0 && (year % 100 ≠ 0 || year % 400 = 0)

/-- The number of days of a month. -/
def daysInMonth (year : Int) (month : Nat) : Nat :=
  if month = 2 then (if isLeapYear year then 29 else 28)
  else if month = 4 || month = 6 || month = 9 || month = 11 then 30
  else 31

/-- A year, a month and a day exist together. -/
def IsDay (year : Int) (month day : Nat) : Prop :=
  (firstYear ≤ year ∧ year ≤ lastYear) ∧ (1 ≤ month ∧ month ≤ 12) ∧
    (1 ≤ day ∧ day ≤ daysInMonth year month)

instance (year : Int) (month day : Nat) : Decidable (IsDay year month day) :=
  inferInstanceAs (Decidable (_ ∧ _ ∧ _))

end Calendar

/-! ## Dates -/

/-- A day of the calendar. -/
structure Date where
  year : Int
  month : Nat
  day : Nat
  isDay : Calendar.IsDay year month day
  deriving DecidableEq

namespace Date

/-- The day of a year, a month and a number in the month, if there is one. -/
def of? (year : Int) (month day : Nat) : Option Date :=
  if h : Calendar.IsDay year month day then some ⟨year, month, day, h⟩ else none

/-- The day after, unless it is the calendar's last. -/
def next? (d : Date) : Option Date :=
  if d.day < Calendar.daysInMonth d.year d.month then of? d.year d.month (d.day + 1)
  else if d.month < 12 then of? d.year (d.month + 1) 1
  else of? (d.year + 1) 1 1

/-- The day before, unless it is the calendar's first. -/
def previous? (d : Date) : Option Date :=
  if 1 < d.day then of? d.year d.month (d.day - 1)
  else if 1 < d.month then of? d.year (d.month - 1) (Calendar.daysInMonth d.year (d.month - 1))
  else of? (d.year - 1) 12 31

/-- The parts of a day make up that day. -/
@[simp] theorem of?_parts (d : Date) : of? d.year d.month d.day = some d := by
  simp [of?, d.isDay]

end Date

end CalcJournal
