/-
CalcJournal.Proofs.Calendar.Bytewise — the bytes of dates are in the order of time.

The text of an instant that is kept has only ASCII characters, each of which is one byte. So the
bytes are in the order of the characters (`encode_lt_iff`), and for years of four digits that is
the order of the instants as they are kept. On the line of time this is the order of the seconds,
and within a second that of the nanoseconds: a leap second that ends a minute comes behind the
second before it, which it carries on, and in front of the next minute. A leap second within a
minute is kept as the second behind it, so its text may be above that of a later instant.
-/
import CalcJournal.Proofs.Calendar.Timeline
import CalcJournal.Proofs.Text.Utf8

namespace CalcJournal

/-! ## 1. Texts of ASCII characters -/

namespace Utf8

/-- Every character of the text is an ASCII one. -/
def IsAscii (cs : List Char) : Prop := ∀ c ∈ cs, c.toNat < 128

theorem isAscii_append {cs ds : List Char} (hcs : IsAscii cs) (hds : IsAscii ds) :
    IsAscii (cs ++ ds) := by
  intro c hc
  rcases List.mem_append.1 hc with hc | hc
  · exact hcs c hc
  · exact hds c hc

theorem isAscii_cons {c : Char} {cs : List Char} (hc : c.toNat < 128) (hcs : IsAscii cs) :
    IsAscii (c :: cs) :=
  List.forall_mem_cons.2 ⟨hc, hcs⟩

theorem isAscii_of_digits {ds : List Char} (h : ∀ c ∈ ds, c.isDigit = true) : IsAscii ds := by
  intro c hc
  have := (Text.digit_bounds (h c hc)).2
  omega

/-- An ASCII character is one byte, its code. -/
theorem encode_cons_of_ascii {c : Char} (hc : c.toNat < 128) (cs : List Char) :
    encode (c :: cs) = UInt8.ofNat c.toNat :: encode cs := by
  have hone : String.utf8EncodeChar c = [UInt8.ofNat c.toNat] := by
    have hle : c.val.toNat ≤ 0x7f := Nat.le_of_lt_succ hc
    unfold String.utf8EncodeChar
    simp only [hle, if_true]
    rfl
  rw [encode, List.flatMap_cons, hone, ← encode, List.singleton_append]

theorem length_encode_of_ascii {cs : List Char} (h : IsAscii cs) :
    (encode cs).length = cs.length := by
  induction cs with
  | nil => rfl
  | cons c cs ih =>
    obtain ⟨hc, hcs⟩ := List.forall_mem_cons.1 h
    rw [encode_cons_of_ascii hc, List.length_cons, List.length_cons, ih hcs]

/-- **The bytes of ASCII texts are in the order of the texts.** -/
theorem encode_lt_iff {cs ds : List Char} (hcs : IsAscii cs) (hds : IsAscii ds) :
    encode cs < encode ds ↔ cs < ds := by
  induction cs generalizing ds with
  | nil =>
    cases ds with
    | nil => exact iff_of_false (List.lt_irrefl _) (List.lt_irrefl _)
    | cons d ds =>
      rw [encode_cons_of_ascii (List.forall_mem_cons.1 hds).1]
      exact iff_of_true (List.nil_lt_cons _ _) (List.nil_lt_cons _ _)
  | cons c cs ih =>
    obtain ⟨hc, hcs⟩ := List.forall_mem_cons.1 hcs
    rw [encode_cons_of_ascii hc]
    cases ds with
    | nil => exact iff_of_false (List.not_lt_nil _) (List.not_lt_nil _)
    | cons d ds =>
      obtain ⟨hd, hds⟩ := List.forall_mem_cons.1 hds
      have hlt : UInt8.ofNat c.toNat < UInt8.ofNat d.toNat ↔ c < d := by
        rw [UInt8.lt_iff_toNat_lt, UInt8.toNat_ofNat', UInt8.toNat_ofNat',
          Nat.mod_eq_of_lt (by omega), Nat.mod_eq_of_lt (by omega)]
        exact Iff.rfl
      have heq : UInt8.ofNat c.toNat = UInt8.ofNat d.toNat ↔ c = d := by
        rw [← UInt8.toNat_inj, UInt8.toNat_ofNat', UInt8.toNat_ofNat',
          Nat.mod_eq_of_lt (by omega), Nat.mod_eq_of_lt (by omega), Char.toNat_inj]
      rw [encode_cons_of_ascii hd, List.cons_lt_cons_iff, List.cons_lt_cons_iff, ih hcs hds, hlt,
        heq]

end Utf8

/-! ## 2. The bytes of a date -/

namespace Rfc3339

open Text Utf8

/-- The text of an instant is an ASCII text. -/
theorem isAscii_instantChars (t : Instant) : IsAscii (instantChars .microseconds t) := by
  have hpadded : ∀ width n, IsAscii (padded width n) := fun width n =>
    isAscii_of_digits fun _ => isDigit_of_mem_padded
  have hyear : IsAscii (yearChars t.date.year) := by
    unfold yearChars
    split
    · exact hpadded _ _
    · refine isAscii_cons ?_ (hpadded _ _)
      split <;> decide
  have hmark : ∀ c, c ∈ ['-', 'T', ':', '.'] → c.toNat < 128 := by
    intro c hc
    simp only [List.mem_cons, List.not_mem_nil, or_false] at hc
    rcases hc with rfl | rfl | rfl | rfl <;> decide
  rw [instantChars_eq, belowYearChars]
  refine isAscii_append hyear (isAscii_cons (hmark _ (by simp)) ?_)
  refine isAscii_append (hpadded _ _) (isAscii_cons (hmark _ (by simp)) ?_)
  refine isAscii_append (hpadded _ _) (isAscii_cons (hmark _ (by simp)) ?_)
  refine isAscii_append (hpadded _ _) (isAscii_cons (hmark _ (by simp)) ?_)
  refine isAscii_append (hpadded _ _) (isAscii_cons (hmark _ (by simp)) ?_)
  refine isAscii_append (hpadded _ _) (isAscii_cons (hmark _ (by simp)) ?_)
  exact isAscii_append (hpadded _ _) (isAscii_cons (by decide) (fun _ h => by simp at h))

/-- With a year of four digits, the text has twenty-seven characters. -/
theorem length_instantChars {t : Instant} (h : 0 ≤ t.date.year ∧ t.date.year ≤ 9999) :
    (instantChars .microseconds t).length = 27 := by
  obtain ⟨-, ⟨-, hmonth⟩, -⟩ := t.date.isDay
  have hyear : (yearChars t.date.year).length = 4 := by
    rw [yearChars, if_pos h]
    exact length_padded (by decide) (show t.date.year.natAbs < 10000 by omega)
  have htwo : ∀ {n}, n < 100 → (padded 2 n).length = 2 := fun hn => length_padded (by decide) hn
  have hmicro : (padded 6 (t.time.writtenNanosecond / 1000)).length = 6 := by
    have := t.time.writtenNanosecond_lt
    exact length_padded (by decide) (show t.time.writtenNanosecond / 1000 < 1000000 by omega)
  have hhour := t.time.hour_lt
  have hminute := t.time.minute_lt
  have hsecond := t.time.writtenSecond_le
  rw [instantChars_eq, belowYearChars]
  simp only [List.length_append, List.length_cons, List.length_nil, hyear,
    @htwo t.date.month (by omega), htwo t.date.day_lt, @htwo t.time.hour (by omega),
    @htwo t.time.minute (by omega), @htwo t.time.writtenSecond (by omega), hmicro]

end Rfc3339

namespace Instant

open Rfc3339

variable {a b : Instant}

/-- The bytes of the text in which an instant is kept. -/
def bytes (t : Instant) : List UInt8 := Utf8.encode (t.text .microseconds).toList

theorem bytes_eq (t : Instant) : t.bytes = Utf8.encode (instantChars .microseconds t) := by
  rw [bytes, text, String.toList_ofList]

/-- The bytes of instants are in the order of their texts. -/
theorem bytes_lt_iff : a.bytes < b.bytes ↔ a.text .microseconds < b.text .microseconds := by
  rw [bytes_eq, bytes_eq, Utf8.encode_lt_iff (isAscii_instantChars a) (isAscii_instantChars b),
    String.lt_iff, text, text, String.toList_ofList, String.toList_ofList]

/-- An instant is earlier than another one on the line of time: in an earlier second, or in the
same second by its nanoseconds. -/
def Earlier (a b : Instant) : Prop :=
  a.seconds < b.seconds ∨ a.seconds = b.seconds ∧ a.nanoseconds < b.nanoseconds

instance (a b : Instant) : Decidable (a.Earlier b) := inferInstanceAs (Decidable (_ ∨ _ ∧ _))

/-- With years of four digits, bytes are in the order of time, as it is written. -/
theorem bytes_lt_iff_earlier (ha : 0 ≤ a.date.year ∧ a.date.year ≤ 9999)
    (hb : 0 ≤ b.date.year ∧ b.date.year ≤ 9999) :
    a.bytes < b.bytes ↔ a.toMicroseconds.asWritten.Earlier b.toMicroseconds.asWritten := by
  have hyears : a.toMicroseconds.asWritten.Before b.toMicroseconds.asWritten →
      a.date.year < b.date.year ∨ a.date.year = b.date.year := fun h =>
    Int.lt_or_eq_of_le h.year_le
  rw [bytes_lt_iff, text_lt_iff, yearChars_lt_iff_of_four ha hb, Earlier, ← before_iff]
  constructor
  · rintro (hyear | ⟨-, hbefore⟩)
    · exact before_of_year_lt hyear
    · exact hbefore
  · intro hbefore
    exact (hyears hbefore).imp_right fun hyear => ⟨hyear, hbefore⟩

/-- Instants whose texts have the same bytes are written alike, once they have been cut. -/
theorem bytes_eq_iff :
    a.bytes = b.bytes ↔ a.toMicroseconds.asWritten = b.toMicroseconds.asWritten := by
  rw [← text_eq_iff]
  constructor
  · intro h
    have hdecode := Utf8.decode?_encode (b.text .microseconds).toList
    rw [← bytes, ← h, bytes, Utf8.decode?_encode] at hdecode
    exact String.toList_inj.1 (Option.some.inj hdecode)
  · intro h
    rw [bytes, h, bytes]

theorem length_bytes {t : Instant} (h : 0 ≤ t.date.year ∧ t.date.year ≤ 9999) :
    t.bytes.length = 27 := by
  rw [t.bytes_eq, Utf8.length_encode_of_ascii (isAscii_instantChars t), length_instantChars h]

/-- Two instants compare as the bytes of their texts do. -/
structure ComparesAs (a b : Instant) (x y : List UInt8) : Prop where
  below : x < y ↔ a.Earlier b
  equal : x = y ↔ a = b
  above : y < x ↔ b.Earlier a

/-- **The order of texts is the order of time, as it is written.** Of two instants in years of
four digits, the bytes of the one text are below those of the other, equal to them or above them
exactly as the one instant, cut to microseconds and as it is written then, is earlier than the
other, the same or later. All these texts have the same length. Instants are written as they are
unless they lie in a leap second within a minute, so all others are in the order of their texts
themselves. -/
theorem bytes_comparesAs_asWritten (ha : 0 ≤ a.date.year ∧ a.date.year ≤ 9999)
    (hb : 0 ≤ b.date.year ∧ b.date.year ≤ 9999) :
    a.toMicroseconds.asWritten.ComparesAs b.toMicroseconds.asWritten a.bytes b.bytes ∧
    (a.IsRegular → b.IsRegular → a.toMicroseconds.ComparesAs b.toMicroseconds a.bytes b.bytes) ∧
    a.bytes.length = 27 ∧ b.bytes.length = 27 := by
  have hcompares :
      a.toMicroseconds.asWritten.ComparesAs b.toMicroseconds.asWritten a.bytes b.bytes :=
    ⟨bytes_lt_iff_earlier ha hb, bytes_eq_iff, bytes_lt_iff_earlier hb ha⟩
  refine ⟨hcompares, fun hregular hregular' => ?_, length_bytes ha, length_bytes hb⟩
  rwa [asWritten_eq_self_iff.2 (isRegular_toMicroseconds.2 hregular),
    asWritten_eq_self_iff.2 (isRegular_toMicroseconds.2 hregular')] at hcompares

/-- A leap second that ended a year is kept below the midnight behind it. -/
theorem bytes_lt_of_leap_second :
    ∃ a b : Instant, Instant.ofText? "1998-12-31T23:59:60.000000999Z" = some a ∧
      Instant.ofText? "1999-01-01T00:00:00Z" = some b ∧
      (0 ≤ a.date.year ∧ a.date.year ≤ 9999) ∧ (0 ≤ b.date.year ∧ b.date.year ≤ 9999) ∧
      (a.IsRegular ∧ b.IsRegular) ∧ a.bytes < b.bytes ∧ a.bytes.length = 27 := by
  let point (t : Instant) := (t.date.year, t.toMicroseconds.seconds, t.toMicroseconds.nanoseconds,
    decide t.IsRegular)
  have hfirst : (Instant.ofText? "1998-12-31T23:59:60.000000999Z").map point
      = some (1998, 915148799, 1000000000, true) := by decide +kernel
  have hsecond : (Instant.ofText? "1999-01-01T00:00:00Z").map point
      = some (1999, 915148800, 0, true) := by decide +kernel
  obtain ⟨a, ha, hpa⟩ := Option.map_eq_some_iff.1 hfirst
  obtain ⟨b, hb, hpb⟩ := Option.map_eq_some_iff.1 hsecond
  simp only [point, Prod.mk.injEq, decide_eq_true_eq] at hpa hpb
  have hyears : (0 ≤ a.date.year ∧ a.date.year ≤ 9999) ∧ 0 ≤ b.date.year ∧ b.date.year ≤ 9999 := by
    omega
  have hregular : a.IsRegular ∧ b.IsRegular := ⟨hpa.2.2.2, hpb.2.2.2⟩
  obtain ⟨-, hcompares, hlength, -⟩ := bytes_comparesAs_asWritten hyears.1 hyears.2
  have hbelow := (hcompares hregular.1 hregular.2).below.2 (.inl (by omega))
  exact ⟨a, b, ha, hb, hyears.1, hyears.2, hregular, hbelow, hlength⟩

/-- An instant of a leap second within a minute is earlier than one of the second behind it, and
its text is above that of the other. -/
theorem bytes_lt_of_leapWithinMinute :
    let later := leapWithinMinute.asWritten.atNanosecond 200000000 (by decide)
    leapWithinMinute.date.year = 2024 ∧ later.date.year = 2024 ∧
      leapWithinMinute.toMicroseconds.Earlier later.toMicroseconds ∧
      later.bytes < leapWithinMinute.bytes := by
  intro later
  have hearlier : later.toMicroseconds.asWritten.Earlier
      leapWithinMinute.toMicroseconds.asWritten := by decide
  exact ⟨rfl, rfl, by decide, (bytes_lt_iff_earlier (by decide) (by decide)).2 hearlier⟩

end Instant

end CalcJournal
