/-
CalcJournal.Proofs.Calendar.Offset — instants written at any offset.

What an offset does is said on the line of time: the instant is as many minutes earlier as the date
and time are ahead of UTC, and it is in the same second, be that a leap second or not. Turning a
local time into UTC moves the hour, the minute and the day instead (`ofLocal?_eq_some_iff`). So an
instant is read from a text exactly if the text is one of its texts (`readChars?_eq_some_iff`).
-/
import CalcJournal.Proofs.Calendar.DateText
import CalcJournal.Proofs.Calendar.Timeline

namespace CalcJournal

/-! ## 1. Offsets -/

namespace Date

open Calendar

variable {d e : Date}

/-- The day before has the number before. -/
theorem number_previous? (h : d.previous? = some e) : e.number = d.number - 1 := by
  obtain ⟨-, ⟨hone, htwelve⟩, hday, hdays⟩ := d.isDay
  unfold previous? at h
  split at h
  case isTrue =>
    obtain ⟨hyear, hmonth, hprevious⟩ := of?_eq_some h
    rw [number, number, dayOfYear, dayOfYear, hyear, hmonth, hprevious]
    omega
  case isFalse hfirst =>
    split at h
    case isTrue hlater =>
      obtain ⟨hyear, hmonth, hprevious⟩ := of?_eq_some h
      have hpositive := one_le_daysInMonth d.year (d.month - 1)
      have hstart := @monthStart_succ (d.month - 1) d.year (by omega)
      have hsucc : d.month - 1 + 1 = d.month := by omega
      rw [hsucc] at hstart
      rw [number, number, dayOfYear, dayOfYear, hyear, hmonth, hprevious, hstart]
      omega
    case isFalse hjanuary =>
      obtain ⟨hyear, hmonth, hprevious⟩ := of?_eq_some h
      have hover := @monthStart_succ 12 (d.year - 1) (by decide)
      have hdecember : daysInMonth (d.year - 1) 12 = 31 := rfl
      have hfirst : monthStart d.year 1 = 0 := rfl
      have hnext := yearStart_succ (d.year - 1)
      have hmonthOne : d.month = 1 := by omega
      rw [monthStart_thirteen, hdecember] at hover
      rw [Int.sub_add_cancel] at hnext
      rw [number, number, dayOfYear, dayOfYear, hyear, hmonth, hprevious, hnext, hmonthOne]
      omega

/-- Only the first day has no day before it. -/
theorem number_of_previous?_none (h : d.previous? = none) : d.number = first.number := by
  obtain ⟨⟨hfirst, hlast⟩, ⟨hone, htwelve⟩, hday, hdays⟩ := d.isDay
  unfold previous? at h
  split at h
  case isTrue hin =>
    exact absurd ⟨⟨hfirst, hlast⟩, ⟨hone, htwelve⟩, by omega, by omega⟩ (not_isDay_of_of? h)
  case isFalse hstart =>
    split at h
    case isTrue hin =>
      have hday : IsDay d.year (d.month - 1) (daysInMonth d.year (d.month - 1)) :=
        ⟨⟨hfirst, hlast⟩, ⟨by omega, by omega⟩, one_le_daysInMonth _ _, Nat.le_refl _⟩
      exact absurd hday (not_isDay_of_of? h)
    case isFalse hin =>
      have hyear : d.year = firstYear := by
        refine Int.le_antisymm (Int.not_lt.1 fun hlt => not_isDay_of_of? h ?_) hfirst
        exact ⟨⟨by omega, by omega⟩, by decide, by decide, Nat.le_refl 31⟩
      have hmonth : d.month = 1 := by omega
      have hdayOne : d.day = 1 := by omega
      rw [number, number, dayOfYear, dayOfYear, hyear, hmonth, hdayOne]
      rfl

end Date

namespace Instant

/-- Instants at the same point of the line are the same. -/
theorem eq_of_seconds {a b : Instant} (hseconds : a.seconds = b.seconds)
    (hnanoseconds : a.nanoseconds = b.nanoseconds) : a = b := by
  rcases before_trichotomy a b with h | h | h
  · have := before_iff.1 h
    omega
  · exact h
  · have := before_iff.1 h
    omega

/-- An instant is a date and time so many minutes ahead of it. -/
structure IsAt (t : Instant) (d : Date) (clock : TimeOfDay) (offset : Int) : Prop where
  seconds : t.seconds = seconds ⟨d, clock⟩ - offset * 60
  nanoseconds : t.nanoseconds = nanoseconds ⟨d, clock⟩

theorem isAt_of_ofLocal? {d : Date} {clock : TimeOfDay} {offset : Int} {t : Instant}
    (hoffset : -1440 < offset ∧ offset < 1440) (h : ofLocal? d clock offset = some t) :
    t.IsAt d clock offset := by
  have hhour := clock.hour_lt
  have hminute := clock.minute_lt
  unfold ofLocal? at h
  dsimp only at h
  obtain ⟨e, hday, rfl⟩ := Option.map_eq_some_iff.1 h
  refine ⟨?_, rfl⟩
  simp only [seconds, TimeOfDay.atMinute]
  split at hday
  case isTrue hbefore =>
    rw [Date.number_previous? hday]
    omega
  case isFalse hbefore =>
    split at hday
    case isTrue hsame =>
      obtain rfl := Option.some.inj hday
      omega
    case isFalse hafter =>
      rw [Date.number_next? hday]
      omega

/-- **A local time is turned into the instant on the line that is as many minutes earlier as it is
ahead**, if there is one. -/
theorem ofLocal?_eq_some_iff {d : Date} {clock : TimeOfDay} {offset : Int} {t : Instant}
    (hoffset : -1440 < offset ∧ offset < 1440) :
    ofLocal? d clock offset = some t ↔ t.IsAt d clock offset := by
  refine ⟨isAt_of_ofLocal? hoffset, fun h => ?_⟩
  cases hlocal : ofLocal? d clock offset with
  | some u =>
    have hu := isAt_of_ofLocal? hoffset hlocal
    rw [eq_of_seconds (hu.seconds.trans h.seconds.symm) (hu.nanoseconds.trans h.nanoseconds.symm)]
  | none =>
    -- the calendar ends at the day, but the instant is behind its end
    exfalso
    have hhour := clock.hour_lt
    have hminute := clock.minute_lt
    have hlow := t.date.number_first_le
    have hhigh := t.date.number_le_last
    have hseconds := h.seconds
    have hclock := clock.second_lt
    have hsecond := t.time.second_lt
    have hours := t.time.hour_lt
    have minutes := t.time.minute_lt
    simp only [seconds] at hseconds
    unfold ofLocal? at hlocal
    dsimp only at hlocal
    have hday := Option.map_eq_none_iff.1 hlocal
    split at hday
    case isTrue hbefore =>
      have := Date.number_of_previous?_none hday
      omega
    case isFalse hbefore =>
      split at hday
      case isTrue => simp at hday
      case isFalse hafter =>
        have := Date.number_of_next?_none hday
        omega

end Instant

/-! ## 2. Texts -/

namespace Rfc3339

/-- The texts of an instant: a date and time at the instant, at any offset. -/
inductive IsDateTime : List Char → Instant → Prop
  | written {cs : List Char} {d : Date} {clock : TimeOfDay} {offset : Int} {t : Instant}
      (h : IsLocal cs d clock offset) (hat : t.IsAt d clock offset) : IsDateTime cs t

/-- **An instant is read from its texts, and from no others.** -/
theorem readChars?_eq_some_iff {cs : List Char} {t : Instant} :
    readChars? cs = some t ↔ IsDateTime cs t := by
  constructor
  · intro h
    obtain ⟨d, clock, offset, hlocal, ht⟩ := of_readChars? h
    exact .written hlocal ((Instant.ofLocal?_eq_some_iff hlocal.offset_bounds).1 ht)
  · rintro ⟨h, hat⟩
    rw [readChars?_of_isLocal h, Instant.ofLocal?_eq_some_iff h.offset_bounds]
    exact hat

end Rfc3339

end CalcJournal
