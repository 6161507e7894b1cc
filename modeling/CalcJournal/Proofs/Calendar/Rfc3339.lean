/-
CalcJournal.Proofs.Calendar.Rfc3339 — the text of an instant is read back.

What is written for a part of an instant is one of the texts of that part, so the text of an
instant is a date and time in UTC. The year needs its cases: four digits, or a sign that says how
many digits may follow.

The main result is `ofText?_text`: with six fraction digits the instant is read back cut
to microseconds, and with the fewest that lose nothing it is read back whole. Either way a leap
second is read back as its text shows it.
-/
import CalcJournal.Proofs.Calendar.DateText

namespace CalcJournal

/-- A month has fewer than a hundred days. -/
theorem Date.day_lt (d : Date) : d.day < 100 := by
  obtain ⟨-, -, -, hday⟩ := d.isDay
  have hmonth : Calendar.daysInMonth d.year d.month ≤ 31 := by
    unfold Calendar.daysInMonth
    split
    · split <;> decide
    · split <;> decide
  omega

namespace Rfc3339

open Text

/-! ## 1. Numbers -/

theorem isNumber_padded {width n : Nat} (hwidth : 0 < width) (h : n < Nat.pow 10 width) :
    IsNumber width (padded width n) n := by
  have hnumber := @IsNumber.digits width [] _ rfl (isRun_padded width n)
    (Nat.le_of_eq (length_padded hwidth h))
  rwa [List.nil_append, digitsValue_padded] at hnumber

theorem isSeparator_self (c : Char) : IsSeparator c [c] := @IsSeparator.behind c [] rfl

/-! ## 2. The day -/

/-- The text of a year is one of its texts. -/
theorem isYear_yearChars (year : Int) : IsYear (yearChars year) year := by
  unfold yearChars
  split
  case isTrue hfour =>
    have hlt : year.natAbs < Nat.pow 10 4 := show year.natAbs < 10000 by omega
    have hyear := IsYear.plain (isNumber_padded (by decide) hlt)
    rwa [Int.natAbs_of_nonneg hfour.1] at hyear
  case isFalse =>
    have hrun := isRun_padded 4 year.natAbs
    split
    case isTrue hneg =>
      have hyear := @IsYear.minus [] _ rfl hrun
      rwa [digitsValue_padded, Int.ofNat_natAbs_of_nonpos (Int.le_of_lt hneg), Int.neg_neg] at hyear
    case isFalse hpos =>
      have hyear := @IsYear.plus [] _ rfl hrun
      rwa [digitsValue_padded, Int.natAbs_of_nonneg (Int.not_lt.1 hpos)] at hyear

/-- The text of a year is read back. -/
theorem year?_yearChars (year : Int) {rest : List Char} (hstop : Stops Char.isDigit rest) :
    year? (yearChars year ++ rest) = some (year, rest) :=
  year?_append (isYear_yearChars year) hstop

/-- The text of a day is one of its texts. -/
theorem isDate_dateChars (d : Date) : IsDate (dateChars d) d := by
  obtain ⟨-, ⟨-, hmonth⟩, -⟩ := d.isDay
  have hlt : d.month < Nat.pow 10 2 := show d.month < 100 by omega
  exact .parts (isYear_yearChars d.year) (isSeparator_self '-') (isNumber_padded (by decide) hlt)
    (isSeparator_self '-') (isNumber_padded (by decide) d.day_lt)

/-! ## 3. The time of day -/

/-- The nanoseconds that a text of this precision keeps. -/
def Precision.kept : Precision → Nat → Nat
  | .microseconds, nanosecond => nanosecond / 1000 * 1000
  | .fewest, nanosecond => nanosecond

/-- A fraction of so many digits writes as many steps of a second, each of which is worth as many
nanoseconds as the digits that are not there leave. -/
theorem isFraction_padded {width unit n : Nat} (hwidth : 0 < width)
    (hunit : unit * Nat.pow 10 width = 1000000000) (h : n < Nat.pow 10 width) :
    IsFraction ('.' :: padded width n) (n * unit) := by
  have hfraction := IsFraction.digits (isRun_padded width n)
  have hpos : 0 < Nat.pow 10 width := Nat.pow_pos (by decide)
  rwa [digitsValue_padded, length_padded hwidth h, ← hunit, ← Nat.mul_assoc,
    Nat.mul_div_cancel _ hpos] at hfraction

/-- The text of a fraction is one of the texts of what it keeps. -/
theorem isFraction_fractionChars (p : Precision) {n : Nat} (h : n < 1000000000) :
    IsFraction (fractionChars p n) (p.kept n) := by
  have hmicro : IsFraction ('.' :: padded 6 (n / 1000)) (n / 1000 * 1000) :=
    isFraction_padded (by decide) rfl (show n / 1000 < 1000000 by omega)
  cases p with
  | microseconds => exact hmicro
  | fewest =>
    unfold fractionChars
    dsimp only [Precision.kept]
    split
    case isTrue hzero =>
      rw [hzero]
      exact .none
    split
    case isTrue hthree =>
      have hmilli : IsFraction ('.' :: padded 3 (n / 1000000)) (n / 1000000 * 1000000) :=
        isFraction_padded (by decide) rfl (show n / 1000000 < 1000 by omega)
      have hexact : n / 1000000 * 1000000 = n := by omega
      rwa [hexact] at hmilli
    split
    case isTrue hsix =>
      have hexact : n / 1000 * 1000 = n := by omega
      rwa [hexact] at hmicro
    case isFalse =>
      have hnano : IsFraction ('.' :: padded 9 n) (n * 1) := isFraction_padded (by decide) rfl h
      rwa [Nat.mul_one] at hnano

/-- The text of a time of day is one of the texts of a time that it keeps. -/
theorem isTime_timeChars (p : Precision) {t kept : TimeOfDay} (hregular : kept.IsRegular)
    (hparts : kept.hour = t.hour ∧ kept.minute = t.minute ∧
      kept.writtenSecond = t.writtenSecond)
    (hkept : kept.writtenNanosecond = p.kept t.writtenNanosecond) :
    IsTime (timeChars p t) kept := by
  have htwo : ∀ {n}, n < 100 → IsNumber 2 (padded 2 n) n := fun h => isNumber_padded (by decide) h
  have hhour := t.hour_lt
  have hminute := t.minute_lt
  have hsecond := t.writtenSecond_le
  have hfraction := isFraction_fractionChars p t.writtenNanosecond_lt
  obtain ⟨hhourEq, hminuteEq, hsecondEq⟩ := hparts
  rw [← hkept] at hfraction
  exact .parts (hhourEq ▸ htwo (by omega)) (isSeparator_self ':') (hminuteEq ▸ htwo (by omega))
    (isSeparator_self ':') (hsecondEq ▸ htwo (by omega)) hfraction hregular

end Rfc3339

/-! ## 4. The instant -/

namespace Instant

open Rfc3339

/-- The text of an instant is the text of the instant that it shows. -/
theorem text_asWritten (p : Precision) (t : Instant) : t.asWritten.text p = t.text p := by
  simp only [text, instantChars, timeChars, asWritten, TimeOfDay.hour_asWritten,
    TimeOfDay.minute_asWritten, TimeOfDay.writtenSecond_asWritten,
    TimeOfDay.writtenNanosecond_asWritten]

/-- The instant that a text of this precision keeps. -/
def kept (p : Precision) (t : Instant) : Instant :=
  match p with
  | .microseconds => t.toMicroseconds.asWritten
  | .fewest => t.asWritten

/-- The text of an instant is a date and time in UTC, that of what it keeps. -/
theorem isLocal_instantChars (p : Precision) (t : Instant) :
    IsLocal (instantChars p t) (t.kept p).date (t.kept p).time 0 := by
  have hdate : (t.kept p).date = t.date := by cases p <;> rfl
  have htime : IsTime (timeChars p t.time) (t.kept p).time := by
    cases p with
    | microseconds =>
      refine isTime_timeChars _ (TimeOfDay.isRegular_asWritten _) ⟨?_, ?_, ?_⟩ ?_
      · exact TimeOfDay.hour_asWritten _
      · exact TimeOfDay.minute_asWritten _
      · exact (TimeOfDay.writtenSecond_asWritten _).trans
          (TimeOfDay.writtenSecond_toMicroseconds _)
      · exact (TimeOfDay.writtenNanosecond_asWritten _).trans
          (TimeOfDay.writtenNanosecond_toMicroseconds _)
    | fewest =>
      refine isTime_timeChars _ (TimeOfDay.isRegular_asWritten _) ⟨?_, ?_, ?_⟩ ?_
      · exact TimeOfDay.hour_asWritten _
      · exact TimeOfDay.minute_asWritten _
      · exact TimeOfDay.writtenSecond_asWritten _
      · exact TimeOfDay.writtenNanosecond_asWritten _
  rw [hdate]
  exact @IsLocal.parts _ _ [] _ [] 'T' _ _ _ (isDate_dateChars t.date) (.inl rfl) htime rfl
    (.zulu (.inl rfl)) rfl

/-- **The text of an instant is read back** as what it shows: the instant as it is written, cut
to microseconds where the text keeps no more. -/
theorem ofText?_text (p : Precision) (t : Instant) : ofText? (t.text p) = some (t.kept p) := by
  rw [ofText?, text, String.toList_ofList, readChars?_of_isLocal (isLocal_instantChars p t),
    ofLocal?_zero]

end Instant

end CalcJournal
