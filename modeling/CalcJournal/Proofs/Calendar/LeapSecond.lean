/-
CalcJournal.Proofs.Calendar.LeapSecond — leap seconds, and what texts show of them.

A leap second is written as the second after the one that it carries on. At the end of a minute
that is second 60, which no other time has. Within a minute it is a second that there is anyway,
so the text is that of another time, and what the text shows is that time
(`TimeOfDay.asWritten`).

The times that texts show are the regular ones, whose leap seconds end a minute. Each of them is
shown as it is (`asWritten_eq_self_iff`), and it is made up of the numbers that are written
(`of?_written`, `of?_eq_some`).
-/
import CalcJournal.Calculation

namespace CalcJournal

/-! ## 1. Times of day -/

namespace TimeOfDay

variable {t u : TimeOfDay}

theorem ext (hhour : t.hour = u.hour) (hminute : t.minute = u.minute)
    (hsecond : t.second = u.second) (hnanosecond : t.nanosecond = u.nanosecond) : t = u := by
  cases t
  cases u
  subst hhour hminute hsecond hnanosecond
  rfl

/-- A leap second, if the time lies in one, ends a minute. -/
def IsRegular (t : TimeOfDay) : Prop := 1000000000 ≤ t.nanosecond → t.second = 59

instance (t : TimeOfDay) : Decidable t.IsRegular :=
  inferInstanceAs (Decidable (1000000000 ≤ t.nanosecond → t.second = 59))

/-- The time that is shown by the text of a time. A leap second within a minute is shown as the
second after the one that it carries on. -/
def asWritten (t : TimeOfDay) : TimeOfDay :=
  if h : 1000000000 ≤ t.nanosecond ∧ t.second ≠ 59 then
    { t with
      second := t.second + 1
      nanosecond := t.nanosecond - 1000000000
      second_lt := by have := t.second_lt; omega
      nanosecond_lt := by have := t.nanosecond_lt; omega }
  else t

theorem asWritten_of_isRegular (h : t.IsRegular) : t.asWritten = t :=
  dif_neg fun hwithin => hwithin.2 (h hwithin.1)

/-- A leap second within a minute is shown a second further, and as no leap second. -/
theorem asWritten_of_not_isRegular (h : ¬ t.IsRegular) :
    t.asWritten.second = t.second + 1 ∧
      t.nanosecond = t.asWritten.nanosecond + 1000000000 := by
  have hwithin : 1000000000 ≤ t.nanosecond ∧ t.second ≠ 59 := by
    simp only [IsRegular] at h
    omega
  rw [asWritten, dif_pos hwithin]
  dsimp only
  omega

@[simp] theorem hour_asWritten (t : TimeOfDay) : t.asWritten.hour = t.hour := by
  unfold asWritten
  split <;> rfl

@[simp] theorem minute_asWritten (t : TimeOfDay) : t.asWritten.minute = t.minute := by
  unfold asWritten
  split <;> rfl

theorem isRegular_asWritten (t : TimeOfDay) : t.asWritten.IsRegular := by
  have hnanosecond := t.nanosecond_lt
  unfold IsRegular asWritten
  split
  case isTrue =>
    intro hleap
    exact absurd hleap (by dsimp only; omega)
  case isFalse => omega

/-- **The regular times are those that are shown as they are.** -/
theorem asWritten_eq_self_iff : t.asWritten = t ↔ t.IsRegular := by
  constructor
  · intro h
    have hregular := t.isRegular_asWritten
    rwa [h] at hregular
  · exact asWritten_of_isRegular

/-! ## 2. The numbers that are written -/

@[simp] theorem writtenSecond_asWritten (t : TimeOfDay) :
    t.asWritten.writtenSecond = t.writtenSecond := by
  have hnanosecond := t.nanosecond_lt
  unfold asWritten
  split
  case isTrue =>
    simp only [writtenSecond]
    omega
  case isFalse => rfl

@[simp] theorem writtenNanosecond_asWritten (t : TimeOfDay) :
    t.asWritten.writtenNanosecond = t.writtenNanosecond := by
  unfold asWritten
  split
  case isTrue =>
    simp only [writtenNanosecond]
    omega
  case isFalse => rfl

theorem writtenSecond_le (t : TimeOfDay) : t.writtenSecond ≤ 60 := by
  have hsecond := t.second_lt
  have hnanosecond := t.nanosecond_lt
  rw [writtenSecond]
  omega

theorem writtenNanosecond_lt (t : TimeOfDay) : t.writtenNanosecond < 1000000000 :=
  Nat.mod_lt _ (by decide)

/-- Regular times that are written alike are the same. -/
theorem eq_of_written (ht : t.IsRegular) (hu : u.IsRegular) (hhour : t.hour = u.hour)
    (hminute : t.minute = u.minute) (hsecond : t.writtenSecond = u.writtenSecond)
    (hnanosecond : t.writtenNanosecond = u.writtenNanosecond) : t = u := by
  have := t.second_lt
  have := u.second_lt
  have := t.nanosecond_lt
  have := u.nanosecond_lt
  simp only [IsRegular] at ht hu
  simp only [writtenSecond] at hsecond
  simp only [writtenNanosecond] at hnanosecond
  exact ext hhour hminute (by omega) (by omega)

/-- A time that four numbers make up is regular, and is written with them. -/
theorem of?_eq_some {hour minute second nanosecond : Nat}
    (h : of? hour minute second nanosecond = some t) :
    t.hour = hour ∧ t.minute = minute ∧ t.writtenSecond = second ∧
      t.writtenNanosecond = nanosecond ∧ t.IsRegular := by
  unfold of? at h
  split at h
  case isTrue hrange =>
    obtain rfl := Option.some.inj h
    refine ⟨rfl, rfl, ?_, ?_, ?_⟩
    · simp only [writtenSecond]
      omega
    · simp only [writtenNanosecond]
      omega
    · simp only [IsRegular]
      omega
  case isFalse => simp at h

/-- **The numbers that are written for a time make up the time that they show.** -/
theorem of?_written (t : TimeOfDay) :
    of? t.hour t.minute t.writtenSecond t.writtenNanosecond = some t.asWritten := by
  cases hread : of? t.hour t.minute t.writtenSecond t.writtenNanosecond with
  | none =>
    rw [of?, dif_pos ⟨t.hour_lt, t.minute_lt, t.writtenSecond_le, t.writtenNanosecond_lt⟩] at hread
    simp at hread
  | some u =>
    obtain ⟨hhour, hminute, hsecond, hnanosecond, hregular⟩ := of?_eq_some hread
    refine congrArg some (eq_of_written hregular t.isRegular_asWritten ?_ ?_ ?_ ?_)
    · rw [hhour, hour_asWritten]
    · rw [hminute, minute_asWritten]
    · rw [hsecond, writtenSecond_asWritten]
    · rw [hnanosecond, writtenNanosecond_asWritten]

/-! ## 3. Whole microseconds -/

theorem isRegular_toMicroseconds : t.toMicroseconds.IsRegular ↔ t.IsRegular := by
  simp only [IsRegular, toMicroseconds]
  omega

theorem writtenSecond_toMicroseconds (t : TimeOfDay) :
    t.toMicroseconds.writtenSecond = t.writtenSecond := by
  simp only [writtenSecond, toMicroseconds]
  omega

theorem writtenNanosecond_toMicroseconds (t : TimeOfDay) :
    t.toMicroseconds.writtenNanosecond = t.writtenNanosecond / 1000 * 1000 := by
  simp only [writtenNanosecond, toMicroseconds]
  omega

/-- It makes no difference whether a time is cut before it is written or behind. -/
theorem toMicroseconds_asWritten (t : TimeOfDay) :
    t.asWritten.toMicroseconds = t.toMicroseconds.asWritten := by
  have hregular := isRegular_toMicroseconds.2 t.isRegular_asWritten
  refine eq_of_written hregular t.toMicroseconds.isRegular_asWritten ?_ ?_ ?_ ?_
  · rw [hour_asWritten]
    exact hour_asWritten t
  · rw [minute_asWritten]
    exact minute_asWritten t
  · rw [writtenSecond_toMicroseconds, writtenSecond_asWritten, writtenSecond_asWritten,
      writtenSecond_toMicroseconds]
  · rw [writtenNanosecond_toMicroseconds, writtenNanosecond_asWritten,
      writtenNanosecond_asWritten, writtenNanosecond_toMicroseconds]

end TimeOfDay

/-! ## 4. Instants and calculations -/

namespace Instant

variable {t : Instant}

/-- A leap second, if the instant lies in one, ends a minute. -/
def IsRegular (t : Instant) : Prop := t.time.IsRegular

instance (t : Instant) : Decidable t.IsRegular := inferInstanceAs (Decidable t.time.IsRegular)

/-- The instant that is shown by the text of an instant. -/
def asWritten (t : Instant) : Instant := { t with time := t.time.asWritten }

theorem isRegular_asWritten (t : Instant) : t.asWritten.IsRegular := t.time.isRegular_asWritten

theorem asWritten_eq_self_iff : t.asWritten = t ↔ t.IsRegular := by
  rw [IsRegular, ← TimeOfDay.asWritten_eq_self_iff]
  constructor
  · exact congrArg time
  · intro h
    rw [asWritten, h]

@[simp] theorem asWritten_asWritten (t : Instant) : t.asWritten.asWritten = t.asWritten :=
  asWritten_eq_self_iff.2 t.isRegular_asWritten

theorem isRegular_toMicroseconds : t.toMicroseconds.IsRegular ↔ t.IsRegular :=
  TimeOfDay.isRegular_toMicroseconds

theorem toMicroseconds_asWritten (t : Instant) :
    t.asWritten.toMicroseconds = t.toMicroseconds.asWritten := by
  rw [toMicroseconds, asWritten, TimeOfDay.toMicroseconds_asWritten]
  rfl

end Instant

namespace Calculation

variable {c : Calculation}

/-- The calculation that is shown by the text of a calculation. -/
def asWritten (c : Calculation) : Calculation := { c with created := c.created.asWritten }

theorem asWritten_eq_self_iff : c.asWritten = c ↔ c.created.IsRegular := by
  rw [← Instant.asWritten_eq_self_iff]
  constructor
  · exact congrArg created
  · intro h
    rw [asWritten, h]

@[simp] theorem asWritten_asWritten (c : Calculation) : c.asWritten.asWritten = c.asWritten :=
  asWritten_eq_self_iff.2 c.created.isRegular_asWritten

end Calculation

/-- An instant of the same second, or of the leap second that carries it on. -/
def Instant.atNanosecond (t : Instant) (nanosecond : Nat) (h : nanosecond < 2000000000) : Instant :=
  { t with time := { t.time with nanosecond := nanosecond, nanosecond_lt := h } }

/-- The middle of a leap second within a minute, which carries on the second 09:20:15. -/
def leapWithinMinute : Instant where
  date := ⟨2024, 3, 4, by decide⟩
  time := ⟨9, 20, 15, 1500000000, by decide, by decide, by decide, by decide⟩

end CalcJournal
