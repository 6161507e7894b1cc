/-
CalcJournal.Proofs.Expression.Decimals — the literals of an expression denote correctly rounded
decimals.

A run of digits writes a decimal: each place before its point counts ten times the one behind it,
and each place behind the point a tenth of the one before it (`Literal.worth`). The reader works on
one whole number instead, that of all digits without the point, over a power of ten, and on no digit
less however many there are; this quotient is the decimal (`Literal.worth_eq`). So the rank that is
found for the quotient is the one in whose cell the decimal lies (`Numeral.exists_inCell`), and all
the rest follows from the cell: what a literal denotes, where zero, the subnormal numbers and the
finite ones end, and how the values of two literals compare.
-/
import CalcJournal.Proofs.Binary64.Nearest
import CalcJournal.Proofs.Expression.Counting
import CalcJournal.Proofs.Text.Ordering
import Mathlib.Data.List.TakeWhile

namespace CalcJournal

namespace Literal

/-! ## 1. The decimal of a run -/

/-- What a digit counts. -/
def digitWorth (c : Char) : ℕ := c.toNat - '0'.toNat

/-- What the digits before the point count: the last one itself, and each one ten times as much
as in the place behind it. -/
def wholeWorth : List Char → ℚ
  | [] => 0
  | c :: cs => digitWorth c * 10 ^ cs.length + wholeWorth cs

/-- What the digits behind the point count: the first one a tenth of itself, and each one a tenth
as much as in the place before it. -/
def fractionWorth : List Char → ℚ
  | [] => 0
  | c :: cs => (digitWorth c + fractionWorth cs) / 10

/-- The decimal that a run writes. -/
def worth (run : List Char) : ℚ :=
  wholeWorth (wholeDigits run) + fractionWorth (fractionDigits run)

theorem wholeWorth_eq (ds : List Char) : wholeWorth ds = Text.digitsValue ds := by
  induction ds with
  | nil => exact Nat.cast_zero.symm
  | cons c cs ih =>
    rw [wholeWorth, ih, Text.digitsValue_cons, Nat.cast_add, Nat.cast_mul, Binary64.natCast_pow]
    rfl

theorem wholeWorth_append (ds es : List Char) :
    wholeWorth (ds ++ es) = wholeWorth ds * 10 ^ es.length + wholeWorth es := by
  induction ds with
  | nil => simp [wholeWorth]
  | cons c cs ih =>
    rw [List.cons_append, wholeWorth, ih, List.length_append, wholeWorth]
    ring

/-- Digits behind the point count what they would before it, over ten for each of them. -/
theorem fractionWorth_eq (ds : List Char) :
    fractionWorth ds = wholeWorth ds / 10 ^ ds.length := by
  induction ds with
  | nil => simp [fractionWorth, wholeWorth]
  | cons c cs ih =>
    rw [fractionWorth, ih, wholeWorth, List.length_cons, pow_succ]
    field_simp

/-- The decimal is the whole number of all digits, over ten for each of them behind the point. -/
theorem worth_eq (run : List Char) :
    worth run = (Text.digitsValue (wholeDigits run ++ fractionDigits run) : ℚ) /
      ((Nat.pow 10 (fractionDigits run).length : ℕ) : ℚ) := by
  rw [Binary64.natCast_pow, Nat.cast_ofNat, ← wholeWorth_eq, wholeWorth_append, worth,
    fractionWorth_eq]
  field_simp

/-! ## 2. Other spellings of a decimal -/

theorem wholeDigits_point {whole : List Char} (h : '.' ∉ whole) (fraction : List Char) :
    wholeDigits (whole ++ '.' :: fraction) = whole := by
  refine Text.takeWhile_prefix (fun c hc => ?_) (by simp)
  simpa using ne_of_mem_of_not_mem hc h

theorem fractionDigits_point {whole : List Char} (h : '.' ∉ whole) (fraction : List Char) :
    fractionDigits (whole ++ '.' :: fraction) = fraction := by
  have hdrop : (whole ++ '.' :: fraction).dropWhile (· != '.') = '.' :: fraction := by
    refine Text.dropWhile_prefix (fun c hc => ?_) (by simp)
    simpa using ne_of_mem_of_not_mem hc h
  rw [fractionDigits, hdrop, List.drop_one, List.tail_cons]

/-- What stands on either side of the point counts on its own. -/
theorem worth_point {whole : List Char} (h : '.' ∉ whole) (fraction : List Char) :
    worth (whole ++ '.' :: fraction) = wholeWorth whole + fractionWorth fraction := by
  rw [worth, wholeDigits_point h, fractionDigits_point h]

theorem worth_whole {run : List Char} (h : '.' ∉ run) : worth run = wholeWorth run := by
  have hall : ∀ c ∈ run, (c != '.') = true := by
    intro c hc
    simpa using ne_of_mem_of_not_mem hc h
  rw [worth, wholeDigits, fractionDigits, List.takeWhile_eq_self_iff.2 hall,
    List.dropWhile_eq_nil_iff.2 hall]
  exact add_zero _

theorem fractionWorth_append_zeros (ds : List Char) (k : ℕ) :
    fractionWorth (ds ++ List.replicate k '0') = fractionWorth ds := by
  induction ds with
  | nil =>
    rw [List.nil_append]
    induction k with
    | zero => rfl
    | succ k ih => simp [List.replicate_succ, fractionWorth, ih, digitWorth]
  | cons c cs ih => rw [List.cons_append, fractionWorth, ih, fractionWorth]

/-- Zeros in front of a run, zeros at the end of its fraction, and a point behind whole digits,
with zeros or none, spell the same decimal. -/
inductive Respells : List Char → List Char → Prop where
  | leading (k : ℕ) (run : List Char) : Respells (List.replicate k '0' ++ run) run
  | trailing (k : ℕ) {run : List Char} (h : '.' ∈ run) :
      Respells (run ++ List.replicate k '0') run
  | pointed (k : ℕ) {run : List Char} (h : '.' ∉ run) :
      Respells (run ++ '.' :: List.replicate k '0') run

theorem Respells.worth_eq {run other : List Char} (h : Respells run other) :
    worth run = worth other := by
  cases h with
  | leading k =>
    have hzeros : ∀ c ∈ List.replicate k '0', (c != '.') = true := by
      intro c hc
      rw [(List.mem_replicate.1 hc).2]
      rfl
    rw [worth, wholeDigits, fractionDigits, List.takeWhile_append_of_pos hzeros,
      List.dropWhile_append_of_pos hzeros, wholeWorth_eq, Text.digitsValue_zeros_append,
      ← wholeWorth_eq]
    rfl
  | trailing k hpoint =>
    obtain ⟨whole, fraction, rfl, hwhole⟩ := List.eq_append_cons_of_mem hpoint
    rw [List.append_assoc, List.cons_append, worth_point hwhole, worth_point hwhole,
      fractionWorth_append_zeros]
  | pointed k hwhole =>
    rw [worth_point hwhole, worth_whole hwhole, ← List.nil_append (List.replicate k '0'),
      fractionWorth_append_zeros]
    exact add_zero _

end Literal

/-! ## 3. What a literal denotes -/

namespace Grammar

open Binary64

/-- The rational that a number spells. -/
def Numeral.exact (n : Numeral) : ℚ := withSign n.negative (Literal.worth n.run)

/-- What a number denotes: its rational, rounded. -/
structure Numeral.Denotes (n : Numeral) (x : Binary64) : Prop where
  rounding : IsRounding n.negative n.exact x
  /-- The sign bit is set exactly when there is a minus. -/
  sign : x.isNegative = n.negative
  /-- Half of the least number above zero still is a zero. -/
  zero : x = .zero n.negative ↔ |n.exact| ≤ 2 ^ (-1075 : ℤ)
  subnormal : x.IsSubnormal ↔
    2 ^ (-1075 : ℤ) < |n.exact| ∧ |n.exact| < 2 ^ (-1022 : ℤ) - 2 ^ (-1075 : ℤ)
  infinite : x = .infinite n.negative ↔ (overflowBound : ℚ) ≤ |n.exact|

/-- The value of a number is the double at the rank in whose cell the decimal lies. -/
theorem Numeral.exists_inCell (n : Numeral) :
    ∃ rank, InCell rank (Literal.worth n.run) ∧ n.value = ofRank n.negative rank := by
  have hden := ten_pow_pos (Literal.fractionDigits n.run).length
  refine ⟨_, ?_, rfl⟩
  rw [Literal.worth_eq]
  exact inCell_of_isNearest hden (isNearest_nearestRank _ hden)

theorem Numeral.denotes_value (n : Numeral) : n.Denotes n.value := by
  obtain ⟨rank, hcell, hvalue⟩ := n.exists_inCell
  have habs : |n.exact| = Literal.worth n.run := abs_withSign hcell.nonneg
  constructor
  · rw [hvalue]
    exact hcell.isRounding
  · exact n.isNegative_value
  · rw [hvalue, habs, ofRank_eq_zero_iff, hcell.pos_iff, not_lt]
  · rw [hvalue, habs, isSubnormal_ofRank, hcell.pos_iff, hcell.lt_normal_iff]
  · rw [hvalue, habs, ofRank_eq_infinite_iff, hcell.topRank_le_iff]

/-- A number denotes nothing but its value. -/
theorem Numeral.denotes_iff (n : Numeral) {x : Binary64} : n.Denotes x ↔ n.value = x := by
  constructor
  · intro h
    obtain ⟨rank, hcell, hvalue⟩ := n.exists_inCell
    rw [hvalue]
    exact (hcell.eq_of_isRounding h.rounding).symm
  · rintro rfl
    exact n.denotes_value

/-! ## 4. Two literals -/

section Comparing

variable {n m : Numeral}

/-- With the same rational, only the sign of a zero can make a difference. -/
theorem Numeral.value_eq_iff (h : n.exact = m.exact) :
    n.value = m.value ↔ n.negative = m.negative := by
  constructor
  · intro hvalue
    rw [← n.isNegative_value, hvalue, m.isNegative_value]
  · intro hsign
    obtain ⟨rank, hcell, hvalue⟩ := n.exists_inCell
    obtain ⟨other, hother, hvalue'⟩ := m.exists_inCell
    rw [exact, exact, hsign] at h
    rw [withSign_injective h] at hcell
    rw [hvalue, hvalue', hsign, hcell.unique hother]

/-- Only zero is spelled with a minus and without. -/
theorem Numeral.negative_eq (h : n.exact = m.exact) (hne : n.exact ≠ 0) :
    n.negative = m.negative := by
  obtain ⟨rank, hcell, -⟩ := n.exists_inCell
  obtain ⟨other, hother, -⟩ := m.exists_inCell
  exact sign_eq_of_withSign_eq hcell.nonneg hother.nonneg h hne

/-- Values are in the order of what is spelled. -/
theorem Numeral.value_atMost (h : n.exact ≤ m.exact) : n.value.AtMost m.value := by
  obtain ⟨rank, hcell, hvalue⟩ := n.exists_inCell
  obtain ⟨other, hother, hvalue'⟩ := m.exists_inCell
  rw [hvalue, hvalue']
  exact hcell.atMost hother h

theorem Numeral.exact_eq (h : Literal.Respells n.run m.run) (hsign : n.negative = m.negative) :
    n.exact = m.exact := by
  rw [exact, exact, h.worth_eq, hsign]

end Comparing

/-! ## 5. Reading -/

/-- A number is spelled from one cursor to another one, where the text does not carry it on. -/
structure Numeral.IsSpelled (n : Numeral) (c d : Cursor) : Prop where
  text : c.rest = n.chars ++ d.rest
  offset : d.offset = c.offset + byteLength n.chars
  ends : Text.Stops Literal.isLiteralChar d.rest

/-- A number on its own is spelled up to its end. -/
theorem Numeral.isSpelled_start (n : Numeral) :
    n.IsSpelled (Cursor.start n.chars) ⟨byteLength n.chars, []⟩ :=
  ⟨(List.append_nil _).symm, (Nat.zero_add _).symm, Text.stops_nil⟩

end Grammar

namespace Expression

open Grammar

/-- What is read is the value of a number that is spelled, and the cursor is moved behind it. -/
theorem readLiteral_eq_ok_iff {c d : Cursor} {x : Binary64} :
    readLiteral c = .ok (x, d) ↔ ∃ n : Numeral, n.IsSpelled c d ∧ n.value = x := by
  constructor
  · intro h
    obtain ⟨n, htext, hends, rfl⟩ := numeral_of_readLiteral h
    refine ⟨n, ⟨htext, ?_, hends⟩, rfl⟩
    have hread := readLiteral_numeral n hends c.offset
    rw [← htext, h] at hread
    exact congrArg Cursor.offset (Prod.mk.inj (Except.ok.inj hread)).2
  · rintro ⟨n, ⟨htext, hoffset, hends⟩, rfl⟩
    have hread := readLiteral_numeral n hends c.offset
    rwa [← htext, ← hoffset] at hread

/-- **Literals denote correctly rounded decimals.** A double is read from one cursor to another one
exactly when a number is spelled between them that denotes it, and each number denotes one double
and no other: its rational, of any number of digits, rounded to the nearest, of two equally near
ones to the even one, with zeros and subnormal numbers below and infinities above at fixed bounds,
and with the minus as the sign bit. So numbers of the same rational, such as those that differ in
zeros at either end or in a bare point, have the same value, except that a zero keeps its minus; and
the values of two numbers are in the order of their rationals. -/
theorem literals_denote_nearest :
    (∀ (c d : Cursor) (x : Binary64), readLiteral c = .ok (x, d) ↔
      ∃ n : Numeral, n.IsSpelled c d ∧ n.Denotes x) ∧
    (∀ (n : Numeral) (x : Binary64), n.Denotes x ↔ n.value = x) ∧
    ∀ n m : Numeral,
      (n.exact = m.exact → (n.value = m.value ↔ n.negative = m.negative) ∧
        (n.exact ≠ 0 → n.value = m.value)) ∧
      (Literal.Respells n.run m.run → n.negative = m.negative →
        n.exact = m.exact ∧ n.value = m.value) ∧
      (n.exact ≤ m.exact → n.value.AtMost m.value) := by
  refine ⟨?_, fun n x => n.denotes_iff, ?_⟩
  · intro c d x
    rw [readLiteral_eq_ok_iff]
    exact exists_congr fun n => and_congr_right fun _ => n.denotes_iff.symm
  · intro n m
    refine ⟨fun h => ⟨Numeral.value_eq_iff h, fun hne => ?_⟩, fun h hsign => ?_,
      Numeral.value_atMost⟩
    · exact (Numeral.value_eq_iff h).2 (Numeral.negative_eq h hne)
    · have hexact := Numeral.exact_eq h hsign
      exact ⟨hexact, (Numeral.value_eq_iff hexact).2 hsign⟩

/-- Two to the power of 53 and one more is half way between two doubles and is read as the even
one. A digit four hundred places behind the point makes it the other one. -/
theorem literals_denote_nearest_halfway :
    ∃ n m : Numeral, n.chars = "9007199254740993".toList ∧
      m.chars = "9007199254740993.".toList ++ (List.replicate 400 '0' ++ ['1']) ∧
      n.exact ≤ m.exact ∧ n.value.AtMost m.value ∧
      readLiteral (Cursor.start n.chars) = .ok (.ofRank false (1076 * 2 ^ 52), ⟨16, []⟩) ∧
      readLiteral (Cursor.start m.chars)
        = .ok (.ofRank false (1076 * 2 ^ 52 + 1), ⟨418, []⟩) := by
  obtain ⟨hread, hdenotes, hcompare⟩ := literals_denote_nearest
  have hwritten : ∀ cs, Literal.isWellFormed (Literal.run cs) = true → Literal.run cs = cs →
      ∃ n : Numeral, n.negative = false ∧ n.run = cs ∧ n.chars = cs := by
    intro cs hcs hrun
    exact ⟨numeralOf false cs hcs, rfl, hrun, hrun⟩
  obtain ⟨n, hn, hrun, hchars⟩ := hwritten "9007199254740993".toList (by decide) (by decide)
  obtain ⟨m, hm, hrun', hchars'⟩ :=
    hwritten ("9007199254740993.".toList ++ (List.replicate 400 '0' ++ ['1']))
      (by decide +kernel) (by decide +kernel)
  have hvalue : n.value = .ofRank false (1076 * 2 ^ 52) := by
    rw [Numeral.value, hn, hrun]
    decide +kernel
  have hvalue' : m.value = .ofRank false (1076 * 2 ^ 52 + 1) := by
    rw [Numeral.value, hm, hrun']
    decide +kernel
  have hle : n.exact ≤ m.exact := by
    have hplaces : ∀ k, (0 : ℚ) < ((Nat.pow 10 k : ℕ) : ℚ) := fun k =>
      Nat.cast_pos.2 (Binary64.ten_pow_pos k)
    rw [Numeral.exact, Numeral.exact, hn, hm, hrun, hrun', Literal.worth_eq, Literal.worth_eq]
    refine (div_le_div_iff₀ (hplaces _) (hplaces _)).2 ?_
    rw [← Nat.cast_mul, ← Nat.cast_mul, Nat.cast_le]
    decide +kernel
  have hlength : byteLength n.chars = 16 := by rw [hchars]; decide
  have hlength' : byteLength m.chars = 418 := by rw [hchars']; decide +kernel
  refine ⟨n, m, hchars, hchars', hle, (hcompare n m).2.2 hle, ?_, ?_⟩
  · rw [← hlength]
    exact (hread _ _ _).2 ⟨n, n.isSpelled_start, (hdenotes n _).2 hvalue⟩
  · rw [← hlength']
    exact (hread _ _ _).2 ⟨m, m.isSpelled_start, (hdenotes m _).2 hvalue'⟩

end Expression

end CalcJournal
