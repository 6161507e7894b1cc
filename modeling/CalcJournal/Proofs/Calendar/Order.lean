/-
CalcJournal.Proofs.Calendar.Order — the order of instants and the order of their texts.

An instant comes before another one when it is smaller in the first of its numbers in which
they differ, from the year down to the nanosecond (`Instant.Before`). Its text holds the numbers
that are written for it in the same order, all of them padded to a width of their own but for the
year. So texts of one year are in the order of the instants that they show, and texts of two
years are in the order of the texts of the years (`text_lt_iff`). Years of four digits are in the
order of their texts (`yearChars_lt_iff_of_four`); a sign comes before every digit, so other
years are not.
-/
import CalcJournal.Proofs.Calendar.Rfc3339
import CalcJournal.Proofs.Text.Ordering

namespace CalcJournal

/-! ## 1. The order of instants -/

namespace Instant

/-- The numbers of an instant, from the one that counts most. -/
def parts (t : Instant) : List Int :=
  [t.date.year, t.date.month, t.date.day, t.time.hour, t.time.minute, t.time.second,
    t.time.nanosecond]

/-- An instant comes before another one. -/
def Before (a b : Instant) : Prop := a.parts < b.parts

instance (a b : Instant) : Decidable (a.Before b) :=
  inferInstanceAs (Decidable (a.parts < b.parts))

theorem parts_injective {a b : Instant} (h : a.parts = b.parts) : a = b := by
  obtain ⟨⟨year, month, day, _⟩, ⟨hour, minute, second, nanosecond, _, _, _, _⟩⟩ := a
  obtain ⟨⟨year', month', day', _⟩, ⟨hour', minute', second', nanosecond', _, _, _, _⟩⟩ := b
  simp only [parts, List.cons.injEq, Int.ofNat_inj, and_true] at h
  obtain ⟨rfl, rfl, rfl, rfl, rfl, rfl, rfl⟩ := h
  rfl

variable {a b : Instant}

theorem Before.asymm (h : a.Before b) : ¬ b.Before a := List.lt_asymm h

/-- Of two instants one comes before the other. -/
theorem before_trichotomy (a b : Instant) : a.Before b ∨ a = b ∨ b.Before a := by
  by_cases hab : a.parts < b.parts
  · exact .inl hab
  · rcases List.le_iff_lt_or_eq.1 hab with hba | heq
    · exact .inr (.inr hba)
    · exact .inr (.inl (parts_injective heq.symm))

/-- An instant of an earlier year comes before. -/
theorem before_of_year_lt (h : a.date.year < b.date.year) : a.Before b :=
  List.cons_lt_cons_iff.2 (.inl h)

theorem Before.year_le (h : a.Before b) : a.date.year ≤ b.date.year := by
  rcases List.cons_lt_cons_iff.1 h with hlt | ⟨heq, -⟩
  · exact Int.le_of_lt hlt
  · exact Int.le_of_eq heq

/-- The numbers that are written for an instant, from the one that counts most. -/
def writtenParts (t : Instant) : List Int :=
  [t.date.year, t.date.month, t.date.day, t.time.hour, t.time.minute, t.time.writtenSecond,
    t.time.writtenNanosecond]

end Instant

/-- Regular times of one minute are in the order of the numbers that are written for them. -/
theorem TimeOfDay.written_lt_iff {t u : TimeOfDay} (ht : t.IsRegular) (hu : u.IsRegular) :
    t.writtenSecond < u.writtenSecond ∨
        t.writtenSecond = u.writtenSecond ∧ t.writtenNanosecond < u.writtenNanosecond ↔
      t.second < u.second ∨ t.second = u.second ∧ t.nanosecond < u.nanosecond := by
  have := t.second_lt
  have := u.second_lt
  have := t.nanosecond_lt
  have := u.nanosecond_lt
  simp only [IsRegular] at ht hu
  simp only [writtenSecond, writtenNanosecond]
  omega

/-- **Instants as they are written are in the order of the numbers that are written.** -/
theorem Instant.asWritten_before_iff {a b : Instant} :
    a.asWritten.Before b.asWritten ↔ a.writtenParts < b.writtenParts := by
  have htime := TimeOfDay.written_lt_iff a.time.isRegular_asWritten b.time.isRegular_asWritten
  simp only [TimeOfDay.writtenSecond_asWritten, TimeOfDay.writtenNanosecond_asWritten] at htime
  simp only [Before, parts, writtenParts, asWritten, TimeOfDay.hour_asWritten,
    TimeOfDay.minute_asWritten, List.cons_lt_cons_iff, List.not_lt_nil, and_false, or_false,
    Int.ofNat_lt, Int.ofNat_inj, htime]

/-! ## 2. The order of years as texts -/

namespace Rfc3339

open Text

/-- Years with the same text are the same. -/
theorem yearChars_injective {a b : Int} (h : yearChars a = yearChars b) : a = b := by
  have ha := year?_yearChars a (@stops_nil Char.isDigit)
  have hb := year?_yearChars b (@stops_nil Char.isDigit)
  rw [h, hb] at ha
  exact (Prod.mk.inj (Option.some.inj ha)).1.symm

/-- Behind its first character, which may be a sign, the text of a year has only digits. -/
theorem yearChars_eq_cons (year : Int) :
    ∃ c ds, yearChars year = c :: ds ∧ ∀ d ∈ ds, d.isDigit = true := by
  unfold yearChars
  split
  case isTrue =>
    cases hds : padded 4 year.natAbs with
    | nil => exact absurd hds (padded_ne_nil 4 year.natAbs)
    | cons c ds =>
      exact ⟨c, ds, rfl, fun d hd => isDigit_of_mem_padded (hds ▸ List.mem_cons_of_mem c hd)⟩
  case isFalse => exact ⟨_, _, rfl, fun _ => isDigit_of_mem_padded⟩

theorem dash_lt_of_isDigit {c : Char} (h : c.isDigit = true) : '-' < c := by
  have := (digit_bounds h).1
  show 45 < c.toNat
  omega

/-- A text that starts with a year is in the order of the texts of the years, and with the
same year in the order of what follows. The texts of years may have different lengths, but
every digit comes after the mark behind them. -/
theorem yearChars_append_lt_iff (a b : Int) (x y : List Char) :
    yearChars a ++ '-' :: x < yearChars b ++ '-' :: y ↔
      yearChars a < yearChars b ∨ a = b ∧ x < y := by
  have hinj : yearChars a = yearChars b ↔ a = b := ⟨yearChars_injective, congrArg _⟩
  obtain ⟨c, u, ha, hu⟩ := yearChars_eq_cons a
  obtain ⟨d, v, hb, hv⟩ := yearChars_eq_cons b
  have hrest := append_cons_lt_iff (fun e he => dash_lt_of_isDigit (hu e he))
    (fun e he => dash_lt_of_isDigit (hv e he)) x y
  rw [← hinj, ha, hb]
  simp only [List.cons_append, List.cons_lt_cons_iff, hrest, List.cons.injEq]
  grind

/-- Years of four digits are in the order of their texts. -/
theorem yearChars_lt_iff_of_four {a b : Int} (ha : 0 ≤ a ∧ a ≤ 9999) (hb : 0 ≤ b ∧ b ≤ 9999) :
    yearChars a < yearChars b ↔ a < b := by
  have hfour : ∀ n : Int, 0 ≤ n ∧ n ≤ 9999 → n.natAbs < Nat.pow 10 4 := by
    intro n hn
    show n.natAbs < 10000
    omega
  rw [yearChars, if_pos ha, yearChars, if_pos hb,
    padded_lt_iff (by decide) (hfour a ha) (hfour b hb)]
  omega

/-! ## 3. The order of instants as texts -/

/-- What follows the year in the text of an instant, with six fraction digits. -/
def belowYearChars (t : Instant) : List Char :=
  padded 2 t.date.month ++ '-' :: (padded 2 t.date.day ++ 'T' ::
    (padded 2 t.time.hour ++ ':' :: (padded 2 t.time.minute ++ ':' ::
      (padded 2 t.time.writtenSecond ++ '.' ::
        (padded 6 (t.time.writtenNanosecond / 1000) ++ ['Z'])))))

theorem instantChars_eq (t : Instant) :
    instantChars .microseconds t = yearChars t.date.year ++ '-' :: belowYearChars t := by
  simp only [instantChars, dateChars, timeChars, fractionChars, belowYearChars,
    List.append_assoc, List.cons_append]

/-- A text that starts with two digits and a mark is in the order of the number that they
write, and with the same number in the order of what follows. -/
theorem two_append_lt_iff {n m : Nat} (hn : n < 100) (hm : m < 100) (c : Char)
    (x y : List Char) :
    padded 2 n ++ c :: x < padded 2 m ++ c :: y ↔ n < m ∨ n = m ∧ x < y := by
  rw [padded_append_lt_iff (by decide) hn hm, List.cons_lt_cons_self]

/-- Within a year, texts are in the order of the instants that they show. -/
theorem belowYearChars_lt_iff {a b : Instant} (h : a.date.year = b.date.year) :
    belowYearChars a < belowYearChars b ↔
      a.toMicroseconds.asWritten.Before b.toMicroseconds.asWritten := by
  have hmonth : ∀ t : Instant, t.date.month < 100 := by
    intro t
    obtain ⟨-, ⟨-, hmonth⟩, -⟩ := t.date.isDay
    omega
  have hhour : ∀ t : Instant, t.time.hour < 100 := fun t => by have := t.time.hour_lt; omega
  have hminute : ∀ t : Instant, t.time.minute < 100 := fun t => by
    have := t.time.minute_lt; omega
  have hsecond : ∀ t : Instant, t.time.writtenSecond < 100 := fun t => by
    have := t.time.writtenSecond_le; omega
  have hmicro : ∀ t : Instant, t.time.writtenNanosecond / 1000 < Nat.pow 10 6 := fun t => by
    have := t.time.writtenNanosecond_lt
    show t.time.writtenNanosecond / 1000 < 1000000
    omega
  have hnano : a.time.writtenNanosecond / 1000 * 1000 < b.time.writtenNanosecond / 1000 * 1000 ↔
      a.time.writtenNanosecond / 1000 < b.time.writtenNanosecond / 1000 := by omega
  have hparts : ∀ t : Instant, t.toMicroseconds.writtenParts =
      [t.date.year, t.date.month, t.date.day, t.time.hour, t.time.minute, t.time.writtenSecond,
        (t.time.writtenNanosecond / 1000 * 1000 : Nat)] := by
    intro t
    rw [← TimeOfDay.writtenNanosecond_toMicroseconds, ← TimeOfDay.writtenSecond_toMicroseconds]
    rfl
  rw [belowYearChars, belowYearChars, two_append_lt_iff (hmonth a) (hmonth b),
    two_append_lt_iff a.date.day_lt b.date.day_lt, two_append_lt_iff (hhour a) (hhour b),
    two_append_lt_iff (hminute a) (hminute b), two_append_lt_iff (hsecond a) (hsecond b),
    padded_append_lt_iff (by decide) (hmicro a) (hmicro b), Instant.asWritten_before_iff, hparts,
    hparts]
  simp only [List.cons_lt_cons_iff, h, Int.lt_irrefl, List.not_lt_nil, and_false, or_false,
    false_or, true_and, Int.ofNat_lt, Int.ofNat_inj, hnano, Char.lt_irrefl]

end Rfc3339

namespace Instant

open Rfc3339

variable {a b : Instant}

/-- **Texts of instants are in the order of the texts of their years, and within a year in
the order of the instants that they show**, cut to microseconds as they are. -/
theorem text_lt_iff : a.text .microseconds < b.text .microseconds ↔
    yearChars a.date.year < yearChars b.date.year ∨
      a.date.year = b.date.year ∧
        a.toMicroseconds.asWritten.Before b.toMicroseconds.asWritten := by
  rw [String.lt_iff, text, text, String.toList_ofList, String.toList_ofList, instantChars_eq,
    instantChars_eq, yearChars_append_lt_iff]
  exact or_congr_right (and_congr_right belowYearChars_lt_iff)

/-- Cutting to microseconds puts no instant before another one that it was not before. -/
theorem before_of_toMicroseconds (h : a.toMicroseconds.Before b.toMicroseconds) : a.Before b := by
  have hcut : a.time.nanosecond / 1000 * 1000 < b.time.nanosecond / 1000 * 1000 →
      a.time.nanosecond < b.time.nanosecond := by omega
  simp only [Before, parts, toMicroseconds, TimeOfDay.toMicroseconds, List.cons_lt_cons_iff,
    List.not_lt_nil, and_false, or_false, Int.ofNat_lt, Int.ofNat_inj] at h ⊢
  grind

/-- Of instants in years of four digits, one that does not come before another one, as they are
written, has no text that comes before the other's. -/
theorem text_not_lt (ha : 0 ≤ a.date.year ∧ a.date.year ≤ 9999)
    (hb : 0 ≤ b.date.year ∧ b.date.year ≤ 9999) (h : ¬ a.asWritten.Before b.asWritten) :
    ¬ a.text .microseconds < b.text .microseconds := by
  rw [text_lt_iff, yearChars_lt_iff_of_four ha hb]
  rintro (hyear | ⟨-, hcut⟩)
  · exact h (before_of_year_lt hyear)
  · rw [← toMicroseconds_asWritten, ← toMicroseconds_asWritten] at hcut
    exact h (before_of_toMicroseconds hcut)

/-- The text with six fraction digits keeps only whole microseconds. -/
theorem text_toMicroseconds (t : Instant) :
    t.toMicroseconds.text .microseconds = t.text .microseconds := by
  have hmicro : t.time.writtenNanosecond / 1000 * 1000 / 1000 = t.time.writtenNanosecond / 1000 :=
    Nat.mul_div_cancel _ (by decide)
  have hchars : belowYearChars t.toMicroseconds = belowYearChars t := by
    rw [belowYearChars, toMicroseconds, TimeOfDay.writtenSecond_toMicroseconds,
      TimeOfDay.writtenNanosecond_toMicroseconds, hmicro]
    rfl
  rw [text, text, instantChars_eq, instantChars_eq, hchars]
  rfl

/-- Instants with the same text are shown as the same, once they have been cut. -/
theorem text_eq_iff : a.text .microseconds = b.text .microseconds ↔
    a.toMicroseconds.asWritten = b.toMicroseconds.asWritten := by
  constructor
  · intro h
    have ha := ofText?_text .microseconds a
    rw [h, ofText?_text .microseconds b] at ha
    exact (Option.some.inj ha).symm
  · intro h
    rw [← text_toMicroseconds a, ← text_asWritten, h, text_asWritten, text_toMicroseconds b]

end Instant

end CalcJournal
