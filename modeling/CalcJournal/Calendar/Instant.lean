/-
CalcJournal.Calendar.Instant — points in time, to the nanosecond, in UTC.

A time of day has an hour, a minute, a second and nanoseconds. From a thousand
million nanoseconds on it lies in a leap second, which carries its second on; any
second may be carried on. A leap second is written as the second after the one
that it carries on, so at the end of a minute it is second 60. An `Instant` is a
time of day on a day, both in UTC. An offset from UTC is a whole number of minutes,
so turning a local time into UTC moves the hour and the minute, and at most one
day, and leaves the second alone.
-/
import CalcJournal.Calendar.Date

namespace CalcJournal

/-! ## Times of day -/

/-- A time of day. From a thousand million nanoseconds on it lies in a leap second, which carries
its second on. -/
structure TimeOfDay where
  hour : Nat
  minute : Nat
  second : Nat
  nanosecond : Nat
  hour_lt : hour < 24
  minute_lt : minute < 60
  second_lt : second < 60
  nanosecond_lt : nanosecond < 2000000000
  deriving DecidableEq

namespace TimeOfDay

/-- The time of day that four numbers write, if each is in its range. Second 60 is the leap
second that carries second 59 on. -/
def of? (hour minute second nanosecond : Nat) : Option TimeOfDay :=
  if h : hour < 24 ∧ minute < 60 ∧ second ≤ 60 ∧ nanosecond < 1000000000 then
    some
      { hour := hour
        minute := minute
        second := min second 59
        nanosecond := second / 60 * 1000000000 + nanosecond
        hour_lt := h.1
        minute_lt := h.2.1
        second_lt := by omega
        nanosecond_lt := by omega }
  else none

/-- The second that is written: that of a leap second is the one after the second that it
carries on. -/
def writtenSecond (t : TimeOfDay) : Nat := t.second + t.nanosecond / 1000000000

/-- The nanoseconds that are written, those within the written second. -/
def writtenNanosecond (t : TimeOfDay) : Nat := t.nanosecond % 1000000000

/-- The same time with its nanoseconds cut to whole microseconds. -/
def toMicroseconds (t : TimeOfDay) : TimeOfDay :=
  { t with
    nanosecond := t.nanosecond / 1000 * 1000
    nanosecond_lt := Nat.lt_of_le_of_lt (Nat.div_mul_le_self _ _) t.nanosecond_lt }

/-- The same second at another hour and minute, given as minutes since midnight. -/
def atMinute (t : TimeOfDay) (minutes : Nat) (h : minutes < 1440) : TimeOfDay :=
  { t with
    hour := minutes / 60
    minute := minutes % 60
    hour_lt := by omega
    minute_lt := by omega }

end TimeOfDay

/-! ## Instants -/

/-- A point in time: a time of day on a day, in UTC. -/
structure Instant where
  date : Date
  time : TimeOfDay
  deriving DecidableEq

namespace Instant

/-- The same instant cut to whole microseconds. -/
def toMicroseconds (t : Instant) : Instant := { t with time := t.time.toMicroseconds }

/-- The instant of a local time that is `offset` minutes ahead of UTC, unless it falls
outside the calendar. -/
def ofLocal? (date : Date) (time : TimeOfDay) (offset : Int) : Option Instant :=
  let minutes : Int := (time.hour * 60 + time.minute : Nat) - offset
  let inDay := (minutes % 1440).toNat
  have inDay_lt : inDay < 1440 := by omega
  let day := if minutes < 0 then date.previous? else if minutes < 1440 then some date else date.next?
  day.map fun d => ⟨d, time.atMinute inDay inDay_lt⟩

/-- A local time without offset is the instant itself. -/
@[simp] theorem ofLocal?_zero (date : Date) (time : TimeOfDay) :
    ofLocal? date time 0 = some ⟨date, time⟩ := by
  have hh := time.hour_lt
  have hm := time.minute_lt
  have h0 : ¬ ((time.hour * 60 + time.minute : Nat) : Int) - 0 < 0 := by omega
  have h1 : ((time.hour * 60 + time.minute : Nat) : Int) - 0 < 1440 := by omega
  simp only [ofLocal?, h0, h1, if_false, if_true, Option.map_some]
  have hd : (((time.hour * 60 + time.minute : Nat) : Int) - 0) % 1440
      = ((time.hour * 60 + time.minute : Nat) : Int) := by omega
  congr 2
  simp only [TimeOfDay.atMinute, hd, Int.toNat_natCast]
  have e1 : (time.hour * 60 + time.minute) / 60 = time.hour := by omega
  have e2 : (time.hour * 60 + time.minute) % 60 = time.minute := by omega
  cases time
  simp only [TimeOfDay.mk.injEq] at e1 e2 ⊢
  exact ⟨e1, e2, trivial, trivial⟩

/-- Cutting to microseconds twice is cutting once. -/
@[simp] theorem toMicroseconds_toMicroseconds (t : Instant) :
    t.toMicroseconds.toMicroseconds = t.toMicroseconds := by
  simp [toMicroseconds, TimeOfDay.toMicroseconds]

end Instant

end CalcJournal
