/-
CalcJournal.Proofs.Calendar.Timeline — instants as points of a line.

Days are numbered from the first of January 1970 on, days before it by negative numbers
(`Date.number`), and every day of the calendar has the number after that of the day before it.
So the days are exactly the numbers from the first day's to the last day's.

An instant has the seconds since that day began, and nanoseconds within the second. A leap
second has no number of its own. It counts as the second before it carried on, so its
nanoseconds start at a thousand million, and any second may be carried on. Seconds first and
nanoseconds second, that is the order of instants (`Instant.before_iff`), and the instants are
exactly the points between the two ends of the calendar (`Instant.exists_iff_onLine`).
-/
import CalcJournal.Proofs.Calendar.Order

namespace CalcJournal

/-! ## 1. Years and months -/

namespace Calendar

variable {year : Int} {month : Nat}

/-- The number of days of a year. -/
def yearLength (year : Int) : Nat := if isLeapYear year then 366 else 365

/-- The number of days from the first day of the year 1 to the first day of a year. -/
def yearStart (year : Int) : Int :=
  365 * (year - 1) + (year - 1) / 4 - (year - 1) / 100 + (year - 1) / 400

/-- The number of days of a year that come before a month; the first month is 1. -/
def monthStart (year : Int) : Nat → Nat
  | 0 | 1 => 0
  | month + 2 => monthStart year (month + 1) + daysInMonth year (month + 1)

theorem isLeapYear_iff :
    isLeapYear year = true ↔ year % 4 = 0 ∧ (year % 100 ≠ 0 ∨ year % 400 = 0) := by
  simp only [isLeapYear, Bool.and_eq_true, Bool.or_eq_true, decide_eq_true_eq]

/-- A year starts when the year before it is over. -/
theorem yearStart_succ (year : Int) : yearStart (year + 1) = yearStart year + yearLength year := by
  unfold yearStart
  by_cases h : year % 4 = 0 ∧ (year % 100 ≠ 0 ∨ year % 400 = 0)
  · rw [yearLength, if_pos (isLeapYear_iff.2 h)]
    omega
  · rw [yearLength, if_neg (mt isLeapYear_iff.1 h)]
    omega

/-- A later year starts when an earlier one is over, or still later. -/
theorem yearStart_add_le {later : Int} (h : year < later) :
    yearStart year + yearLength year ≤ yearStart later := by
  rw [← yearStart_succ]
  unfold yearStart
  omega

theorem monthStart_succ (year : Int) (h : 1 ≤ month) :
    monthStart year (month + 1) = monthStart year month + daysInMonth year month := by
  cases month with
  | zero => omega
  | succ month => rfl

theorem one_le_daysInMonth (year : Int) (month : Nat) : 1 ≤ daysInMonth year month := by
  unfold daysInMonth
  split
  · split <;> decide
  · split <;> decide

/-- A later month starts when an earlier one is over, or still later. -/
theorem monthStart_add_le {later : Nat} (hmonth : 1 ≤ month) (h : month < later) :
    monthStart year month + daysInMonth year month ≤ monthStart year later := by
  induction h with
  | refl => exact Nat.le_of_eq (monthStart_succ year hmonth).symm
  | @step later hlater ih =>
    have hpos : month < later := hlater
    rw [monthStart_succ year (by omega)]
    omega

/-- Twelve months make up a year. -/
theorem monthStart_thirteen (year : Int) : monthStart year 13 = yearLength year := by
  simp only [monthStart, daysInMonth, yearLength]
  cases isLeapYear year <;> rfl

end Calendar

/-! ## 2. Days -/

namespace Date

open Calendar

variable {d e : Date}

/-- The first day of the calendar. -/
def first : Date := ⟨firstYear, 1, 1, by decide⟩

/-- The last day of the calendar. -/
def last : Date := ⟨lastYear, 12, 31, by decide⟩

/-- How many days of its year come before a day. -/
def dayOfYear (d : Date) : Nat := monthStart d.year d.month + (d.day - 1)

/-- The number of a day, which is zero for the first of January 1970. -/
def number (d : Date) : Int := yearStart d.year + d.dayOfYear - 719162

/-- A day is one of the days of its year. -/
theorem dayOfYear_lt (d : Date) : d.dayOfYear < yearLength d.year := by
  obtain ⟨-, ⟨hone, htwelve⟩, hday, hdays⟩ := d.isDay
  have hmonth := @monthStart_add_le d.year d.month 13 hone (by omega)
  rw [monthStart_thirteen] at hmonth
  rw [dayOfYear]
  omega

/-- A day of an earlier year has a smaller number. -/
theorem number_lt_of_year_lt (h : d.year < e.year) : d.number < e.number := by
  have hd := d.dayOfYear_lt
  have hyear := yearStart_add_le h
  rw [number, number]
  omega

/-- Within a year, a day of an earlier month has a smaller number. -/
theorem number_lt_of_month_lt (hyear : d.year = e.year) (h : d.month < e.month) :
    d.number < e.number := by
  obtain ⟨-, ⟨hone, -⟩, hday, hdays⟩ := d.isDay
  have hmonth := @monthStart_add_le d.year d.month e.month hone h
  rw [number, number, dayOfYear, dayOfYear, ← hyear]
  omega

/-- Within a month, an earlier day has a smaller number. -/
theorem number_lt_of_day_lt (hyear : d.year = e.year) (hmonth : d.month = e.month)
    (h : d.day < e.day) : d.number < e.number := by
  obtain ⟨-, -, hday, -⟩ := d.isDay
  rw [number, number, dayOfYear, dayOfYear, ← hyear, ← hmonth]
  omega

/-- Three numbers that make up no day are no day. -/
theorem not_isDay_of_of? {year : Int} {month day : Nat} (h : of? year month day = none) :
    ¬ IsDay year month day := by
  intro hday
  simp [of?, hday] at h

/-- **The day after has the number after.** -/
theorem number_next? (h : d.next? = some e) : e.number = d.number + 1 := by
  obtain ⟨-, ⟨hone, htwelve⟩, hday, hdays⟩ := d.isDay
  unfold next? at h
  split at h
  case isTrue =>
    obtain ⟨hyear, hmonth, hnext⟩ := of?_eq_some h
    rw [number, number, dayOfYear, dayOfYear, hyear, hmonth, hnext]
    omega
  case isFalse hlast =>
    split at h
    case isTrue =>
      obtain ⟨hyear, hmonth, hnext⟩ := of?_eq_some h
      rw [number, number, dayOfYear, dayOfYear, hyear, hmonth, hnext,
        monthStart_succ d.year hone]
      omega
    case isFalse =>
      obtain ⟨hyear, hmonth, hnext⟩ := of?_eq_some h
      have hdecember : d.month = 12 := by omega
      have hover := monthStart_succ d.year hone
      have hfirst : monthStart (d.year + 1) 1 = 0 := rfl
      rw [hdecember, monthStart_thirteen] at hover
      rw [hdecember] at hlast hdays
      rw [number, number, dayOfYear, dayOfYear, hyear, hmonth, hnext, yearStart_succ, hdecember]
      omega

/-- Only the last day has no day after it. -/
theorem number_of_next?_none (h : d.next? = none) : d.number = last.number := by
  obtain ⟨⟨hfirst, hlast⟩, ⟨hone, htwelve⟩, hday, hdays⟩ := d.isDay
  unfold next? at h
  split at h
  case isTrue hin =>
    exact absurd ⟨⟨hfirst, hlast⟩, ⟨hone, htwelve⟩, by omega, hin⟩ (not_isDay_of_of? h)
  case isFalse hend =>
    split at h
    case isTrue hin =>
      have hday : IsDay d.year (d.month + 1) 1 :=
        ⟨⟨hfirst, hlast⟩, ⟨by omega, hin⟩, by omega, one_le_daysInMonth _ _⟩
      exact absurd hday (not_isDay_of_of? h)
    case isFalse hin =>
      have hyear : d.year = lastYear := by
        refine Int.le_antisymm hlast (Int.not_lt.1 fun hlt => not_isDay_of_of? h ?_)
        exact ⟨⟨by omega, hlt⟩, by decide, by decide, one_le_daysInMonth _ _⟩
      have hmonth : d.month = 12 := by omega
      have hlastDay : daysInMonth d.year 12 = 31 := rfl
      rw [hmonth, hlastDay] at hdays hend
      have hdayEq : d.day = 31 := by omega
      rw [number, number, dayOfYear, dayOfYear, hyear, hmonth, hdayEq]
      rfl

theorem number_first_le (d : Date) : first.number ≤ d.number := by
  have hle : yearStart firstYear ≤ yearStart d.year := by
    rcases Int.lt_or_eq_of_le d.isDay.1.1 with hlt | heq
    · have := yearStart_add_le hlt
      omega
    · exact Int.le_of_eq (congrArg yearStart heq)
  have hfirst : first.number = yearStart firstYear - 719162 := rfl
  rw [hfirst, number]
  omega

theorem number_le_last (d : Date) : d.number ≤ last.number := by
  have hlt := d.dayOfYear_lt
  have hle : yearStart d.year + yearLength d.year ≤ yearStart (lastYear + 1) :=
    yearStart_add_le (Int.lt_add_one_of_le d.isDay.1.2)
  have hlast : last.number = yearStart (lastYear + 1) - 1 - 719162 := rfl
  rw [hlast, number]
  omega

/-- **Every number between the first day's and the last day's is that of a day.** -/
theorem exists_number_eq {n : Int} (hfirst : first.number ≤ n) (hlast : n ≤ last.number) :
    ∃ d : Date, d.number = n := by
  obtain ⟨k, rfl⟩ : ∃ k : Nat, n = first.number + k := ⟨(n - first.number).toNat, by omega⟩
  -- the day after each day, until there is none
  induction k with
  | zero => exact ⟨first, by omega⟩
  | succ k ih =>
    obtain ⟨d, hd⟩ := ih (by omega) (by omega)
    cases hnext : d.next? with
    | none =>
      have := number_of_next?_none hnext
      omega
    | some e =>
      have := number_next? hnext
      exact ⟨e, by omega⟩

end Date

/-! ## 3. Instants -/

namespace Instant

variable {a b : Instant}

/-- The seconds of an instant since 1970 began. A leap second counts as the second before it. -/
def seconds (t : Instant) : Int :=
  t.date.number * 86400 + (t.time.hour * 3600 + t.time.minute * 60 + t.time.second : Nat)

/-- The nanoseconds of an instant within its second. Those of a leap second carry on those of
the second before it. -/
def nanoseconds (t : Instant) : Nat := t.time.nanosecond

/-- The points of the line between the ends of the calendar. -/
structure OnLine (seconds : Int) (nanoseconds : Nat) : Prop where
  low : -8334601228800 ≤ seconds
  high : seconds ≤ 8210266876799
  within : nanoseconds < 2000000000

/-- What comes before lies before on the line. -/
theorem Before.on_line (h : a.Before b) :
    a.seconds < b.seconds ∨ a.seconds = b.seconds ∧ a.nanoseconds < b.nanoseconds := by
  obtain ⟨da, ⟨ha, ma, sa, na, hha, hma, hsa, hna⟩⟩ := a
  obtain ⟨db, ⟨hb, mb, sb, nb, hhb, hmb, hsb, hnb⟩⟩ := b
  simp only [Before, parts, List.cons_lt_cons_iff, List.not_lt_nil, and_false, or_false,
    Int.ofNat_lt, Int.ofNat_inj] at h
  simp only [seconds, nanoseconds]
  rcases h with hyear | ⟨hyear, hmonth | ⟨hmonth, hday | ⟨hday, htime⟩⟩⟩
  · have := Date.number_lt_of_year_lt hyear
    omega
  · have := Date.number_lt_of_month_lt hyear hmonth
    omega
  · have := Date.number_lt_of_day_lt hyear hmonth hday
    omega
  · have hnumber : da.number = db.number := by
      rw [Date.number, Date.number, Date.dayOfYear, Date.dayOfYear, hyear, hmonth, hday]
    rw [hnumber]
    omega

/-- **Instants are in the order of their seconds, and within a second in that of their
nanoseconds.** -/
theorem before_iff : a.Before b ↔
    a.seconds < b.seconds ∨ a.seconds = b.seconds ∧ a.nanoseconds < b.nanoseconds := by
  constructor
  · exact Before.on_line
  · intro h
    rcases before_trichotomy a b with hbefore | rfl | hafter
    · exact hbefore
    · omega
    · have := hafter.on_line
      omega

/-- **The instants are exactly the points of the line.** -/
theorem exists_iff_onLine (seconds : Int) (nanoseconds : Nat) :
    (∃ t : Instant, t.seconds = seconds ∧ t.nanoseconds = nanoseconds) ↔
      OnLine seconds nanoseconds := by
  have hfirst : Date.first.number = -96465292 := by decide
  have hlast : Date.last.number = 95026236 := by decide
  constructor
  · rintro ⟨t, rfl, rfl⟩
    obtain ⟨d, ⟨hour, minute, second, nanosecond, hhour, hminute, hsecond, hnano⟩⟩ := t
    have hlow := d.number_first_le
    have hhigh := d.number_le_last
    refine ⟨?_, ?_, hnano⟩ <;> simp only [Instant.seconds] <;> omega
  · rintro ⟨hlow, hhigh, hnano⟩
    obtain ⟨d, hd⟩ := @Date.exists_number_eq (seconds / 86400) (by omega) (by omega)
    have hhour : (seconds % 86400 / 3600).toNat < 24 := by omega
    have hminute : (seconds % 3600 / 60).toNat < 60 := by omega
    have hsecond : (seconds % 60).toNat < 60 := by omega
    refine ⟨⟨d, ⟨_, _, _, nanoseconds, hhour, hminute, hsecond, hnano⟩⟩, ?_, rfl⟩
    simp only [Instant.seconds, hd]
    omega

/-- A leap second within a minute is shown as the point that is a second further and as many
nanoseconds back. -/
theorem asWritten_on_line {t : Instant} (h : ¬ t.IsRegular) :
    t.asWritten.seconds = t.seconds + 1 ∧
      t.nanoseconds = t.asWritten.nanoseconds + 1000000000 := by
  obtain ⟨hsecond, hnanosecond⟩ := TimeOfDay.asWritten_of_not_isRegular h
  refine ⟨?_, hnanosecond⟩
  simp only [seconds, asWritten, TimeOfDay.hour_asWritten, TimeOfDay.minute_asWritten, hsecond]
  omega

/-! ## 4. Whole microseconds -/

/-- The nanoseconds from an instant to a later one. -/
def since (later t : Instant) : Int :=
  (later.seconds - t.seconds) * 1000000000 + (later.nanoseconds - t.nanoseconds)

/-- An instant is another one cut to microseconds: what its second has over whole microseconds
is taken from it. It is then no later, and less than a microsecond earlier, and in the same
second, be that a leap second or not. -/
structure CutsTo (t cut : Instant) : Prop where
  seconds_eq : cut.seconds = t.seconds
  nanoseconds_eq : cut.nanoseconds = t.nanoseconds - t.nanoseconds % 1000
  not_later : ¬ t.Before cut
  close : t.since cut < 1000
  second_eq : cut.time.second = t.time.second
  leap_iff : 1000000000 ≤ cut.nanoseconds ↔ 1000000000 ≤ t.nanoseconds

/-- **To drop the digits behind the microsecond is to go back to the last whole one.** -/
theorem cutsTo_toMicroseconds (t : Instant) : t.CutsTo t.toMicroseconds := by
  have hseconds : t.toMicroseconds.seconds = t.seconds := rfl
  have hnanoseconds : t.toMicroseconds.nanoseconds = t.nanoseconds - t.nanoseconds % 1000 := by
    simp only [nanoseconds, toMicroseconds, TimeOfDay.toMicroseconds]
    omega
  refine ⟨hseconds, hnanoseconds, ?_, ?_, rfl, ?_⟩
  · rw [before_iff]
    omega
  · rw [since]
    omega
  · omega

end Instant

end CalcJournal
