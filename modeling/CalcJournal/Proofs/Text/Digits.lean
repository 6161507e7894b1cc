/-
CalcJournal.Proofs.Text.Digits — runs of digits and zeros around them.

Zeros in front of a run of digits do not change its value, and each zero behind it
multiplies the value by ten. A padded number has exactly the width that was asked
for as long as it fits, so it can be cut off a text by its length.
-/
import CalcJournal.Text.Blank
import CalcJournal.Text.Digits

namespace CalcJournal.Text

/-! ## 1. Digits are no blanks -/

/-- A digit is no blank. -/
theorem isBlank_of_isDigit {c : Char} (h : c.isDigit = true) : isBlank c = false := by
  simp only [Char.isDigit, Bool.and_eq_true, decide_eq_true_eq] at h
  obtain ⟨hlo, hhi⟩ := h
  have hlo : 48 ≤ c.toNat := hlo
  have hhi : c.toNat ≤ 57 := hhi
  simp only [isBlank, blankRanges, List.any_cons, List.any_nil, Bool.or_false,
    Bool.or_eq_false_iff, Bool.and_eq_false_iff, decide_eq_false_iff_not]
  omega

/-! ## 2. Zeros around a run -/

/-- Zeros in front of a run do not change its value. -/
theorem digitsValue_zeros_append (n : Nat) (ds : List Char) :
    digitsValue (List.replicate n '0' ++ ds) = digitsValue ds := by
  simp only [digitsValue, Nat.ofDigitChars_append, Nat.ofDigitChars_replicate_zero,
    Nat.mul_zero]

/-- Zeros behind a run multiply its value by ten each. -/
theorem digitsValue_append_zeros (ds : List Char) (n : Nat) :
    digitsValue (ds ++ List.replicate n '0') = digitsValue ds * Nat.pow 10 n := by
  rw [digitsValue, Nat.ofDigitChars_append, Nat.ofDigitChars_replicate_zero, Nat.mul_comm]
  rfl

theorem digitsValue_zero_cons (ds : List Char) : digitsValue ('0' :: ds) = digitsValue ds :=
  digitsValue_zeros_append 1 ds

/-! ## 3. The digits of a number -/

/-- One digit or more, and nothing else. -/
def IsRun (ds : List Char) : Prop := ds ≠ [] ∧ ∀ c ∈ ds, c.isDigit = true

theorem IsRun.exists_cons {ds : List Char} (h : IsRun ds) :
    ∃ d more, ds = d :: more ∧ d.isDigit = true := by
  cases ds with
  | nil => exact absurd rfl h.1
  | cons d more => exact ⟨d, more, rfl, h.2 d (by simp)⟩

theorem isRun_decimal (n : Nat) : IsRun (decimal n) :=
  ⟨decimal_ne_nil n, fun _ => isDigit_of_mem_decimal⟩

theorem decimal_of_lt {n : Nat} (h : n < 10) : decimal n = [Nat.digitChar n] :=
  Nat.toDigits_of_lt_base h

theorem decimal_of_le {n : Nat} (h : 10 ≤ n) :
    decimal n = decimal (n / 10) ++ [Nat.digitChar (n % 10)] :=
  Nat.toDigits_of_base_le (by decide) h

theorem head?_append_of_ne {cs : List Char} (h : cs ≠ []) (rest : List Char) :
    (cs ++ rest).head? = cs.head? := by
  cases cs with
  | nil => exact absurd rfl h
  | cons c cs => rfl

/-- The digits of a positive number do not start with a zero. -/
theorem head?_decimal_ne {n : Nat} (h : 0 < n) : (decimal n).head? ≠ some '0' := by
  induction n using Nat.strongRecOn with
  | ind n ih =>
    rcases Nat.lt_or_ge n 10 with hlt | hge
    · have hdigit : ∀ d, d < 10 → 0 < d → Nat.digitChar d ≠ '0' := by decide
      rw [decimal_of_lt hlt]
      simpa using hdigit n hlt h
    · have hfront : (decimal n).head? = (decimal (n / 10)).head? := by
        rw [decimal_of_le hge, head?_append_of_ne (decimal_ne_nil _)]
      rw [hfront]
      exact ih (n / 10) (by omega) (by omega)

/-- Digits that write a number, with or without a plus in front. -/
def IsUnsigned (cs : List Char) (n : Nat) : Prop :=
  ∃ ds, (cs = ds ∨ cs = '+' :: ds) ∧ IsRun ds ∧ digitsValue ds = n

theorem readNat?_eq_some_iff {cs : List Char} {n : Nat} :
    readNat? cs = some n ↔ IsRun cs ∧ digitsValue cs = n := by
  simp [readNat?, IsRun]

theorem readUnsigned?_eq_some_iff {cs : List Char} {n : Nat} :
    readUnsigned? cs = some n ↔ IsUnsigned cs n := by
  unfold readUnsigned?
  split
  case h_1 ds =>
    rw [readNat?_eq_some_iff]
    constructor
    · rintro ⟨hrun, hvalue⟩
      exact ⟨ds, .inr rfl, hrun, hvalue⟩
    · rintro ⟨es, rfl | h, hrun, hvalue⟩
      · exact absurd (hrun.2 '+' (by simp)) (by decide)
      · obtain rfl := (List.cons.inj h).2
        exact ⟨hrun, hvalue⟩
  case h_2 hplus =>
    rw [readNat?_eq_some_iff]
    constructor
    · rintro ⟨hrun, hvalue⟩
      exact ⟨cs, .inl rfl, hrun, hvalue⟩
    · rintro ⟨ds, rfl | h, hrun, hvalue⟩
      · exact ⟨hrun, hvalue⟩
      · exact absurd h (hplus ds)

theorem isUnsigned_decimal (n : Nat) : IsUnsigned (decimal n) n :=
  ⟨decimal n, .inl rfl, isRun_decimal n, digitsValue_decimal n⟩

/-! ## 4. Padded numbers -/

theorem isDigit_of_mem_padded {width n : Nat} {c : Char} (h : c ∈ padded width n) :
    c.isDigit = true := by
  rcases List.mem_append.1 h with h | h
  · rw [(List.mem_replicate.1 h).2]; rfl
  · exact isDigit_of_mem_decimal h

/-- A padded number has its value. -/
@[simp] theorem digitsValue_padded (width n : Nat) : digitsValue (padded width n) = n := by
  rw [padded, digitsValue_zeros_append, digitsValue_decimal]

theorem padded_ne_nil (width n : Nat) : padded width n ≠ [] :=
  List.append_ne_nil_of_right_ne_nil _ (decimal_ne_nil n)

theorem isRun_padded (width n : Nat) : IsRun (padded width n) :=
  ⟨padded_ne_nil width n, fun _ => isDigit_of_mem_padded⟩

/-- A number with few enough digits fills its width exactly. -/
theorem length_padded {width n : Nat} (hwidth : 0 < width) (h : n < Nat.pow 10 width) :
    (padded width n).length = width := by
  have hlen : (decimal n).length ≤ width :=
    (Nat.length_toDigits_le_iff (by decide) hwidth).2 h
  simp only [padded, List.length_append, List.length_replicate]
  omega

end CalcJournal.Text
