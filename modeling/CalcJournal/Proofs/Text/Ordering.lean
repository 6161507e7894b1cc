/-
CalcJournal.Proofs.Text.Ordering — the order of texts that are built from numbers.

Texts are ordered by the first character in which they differ. Two runs of digits of the
same length are in the order of their values (`lt_iff_digitsValue_lt`), so padded numbers
are, and a text of padded fields is in the order of its fields, the first of them counting
most (`padded_append_lt_iff`). Behind a part whose characters all come after a separator,
it makes no difference that the parts may have different lengths
(`append_cons_lt_iff`).
-/
import CalcJournal.Proofs.Text.Digits

namespace CalcJournal.Text

/-! ## 1. Runs of digits -/

theorem digit_bounds {c : Char} (h : c.isDigit = true) : 48 ≤ c.toNat ∧ c.toNat ≤ 57 := by
  simp only [Char.isDigit, Bool.and_eq_true, decide_eq_true_eq] at h
  exact h

/-- The first digit of a run counts as often as there are runs of the digits behind it. -/
theorem digitsValue_cons (c : Char) (ds : List Char) :
    digitsValue (c :: ds) = (c.toNat - 48) * Nat.pow 10 ds.length + digitsValue ds := by
  rw [digitsValue, Nat.ofDigitChars_cons, Nat.ofDigitChars_eq_ofDigitChars_zero, Nat.mul_comm,
    Nat.mul_zero, Nat.zero_add]
  rfl

theorem digitsValue_lt {ds : List Char} (h : ∀ c ∈ ds, c.isDigit = true) :
    digitsValue ds < Nat.pow 10 ds.length := by
  induction ds with
  | nil => decide
  | cons c ds ih =>
    have hrest := ih fun d hd => h d (List.mem_cons_of_mem c hd)
    have hdigit := digit_bounds (h c (by simp))
    have hten : Nat.pow 10 (ds.length + 1) = 10 * Nat.pow 10 ds.length := Nat.pow_succ'
    have hle : (c.toNat - 48) * Nat.pow 10 ds.length ≤ 9 * Nat.pow 10 ds.length :=
      Nat.mul_le_mul_right _ (by omega)
    rw [digitsValue_cons, List.length_cons, hten]
    omega

/-- Numbers are in the order of their quotients by `p`, and with the same quotient in the
order of their remainders. -/
theorem mul_add_lt_iff {p x y v w : Nat} (hv : v < p) (hw : w < p) :
    x * p + v < y * p + w ↔ x < y ∨ x = y ∧ v < w := by
  rcases Nat.lt_trichotomy x y with h | rfl | h
  · have hle : (x + 1) * p ≤ y * p := Nat.mul_le_mul_right p h
    rw [Nat.succ_mul] at hle
    omega
  · omega
  · have hle : (y + 1) * p ≤ x * p := Nat.mul_le_mul_right p h
    rw [Nat.succ_mul] at hle
    omega

/-- **Runs of digits of the same length are in the order of their values.** -/
theorem lt_iff_digitsValue_lt {ds es : List Char} (hds : ∀ c ∈ ds, c.isDigit = true)
    (hes : ∀ c ∈ es, c.isDigit = true) (hlength : ds.length = es.length) :
    ds < es ↔ digitsValue ds < digitsValue es := by
  induction ds generalizing es with
  | nil =>
    obtain rfl := List.length_eq_zero_iff.1 hlength.symm
    simp
  | cons c ds ih =>
    cases es with
    | nil => simp at hlength
    | cons e es =>
      have hrest : ds.length = es.length := Nat.succ.inj hlength
      have hds' : ∀ d ∈ ds, d.isDigit = true := fun d hd => hds d (List.mem_cons_of_mem c hd)
      have hes' : ∀ d ∈ es, d.isDigit = true := fun d hd => hes d (List.mem_cons_of_mem e hd)
      have hv := digitsValue_lt hds'
      have hw := digitsValue_lt hes'
      have hc := digit_bounds (hds c (by simp))
      have he := digit_bounds (hes e (by simp))
      have hlt : c < e ↔ c.toNat - 48 < e.toNat - 48 := by
        show c.toNat < e.toNat ↔ _
        omega
      have heq : c = e ↔ c.toNat - 48 = e.toNat - 48 := by
        rw [← Char.toNat_inj]
        omega
      rw [hrest] at hv
      rw [List.cons_lt_cons_iff, ih hds' hes' hrest, hlt, heq, digitsValue_cons,
        digitsValue_cons, hrest, mul_add_lt_iff hv hw]

/-! ## 2. Texts in parts -/

/-- Behind parts of the same length, it is what follows that decides. -/
theorem append_lt_append_iff {u v : List Char} (hlength : u.length = v.length)
    (x y : List Char) : u ++ x < v ++ y ↔ u < v ∨ u = v ∧ x < y := by
  induction u generalizing v with
  | nil =>
    obtain rfl := List.length_eq_zero_iff.1 hlength.symm
    simp
  | cons c u ih =>
    cases v with
    | nil => simp at hlength
    | cons d v =>
      simp only [List.cons_append, List.cons_lt_cons_iff, ih (Nat.succ.inj hlength),
        List.cons.injEq]
      grind

/-- Behind parts whose characters all come after a separator, it is what follows the
separator that decides, whatever the lengths of the parts. -/
theorem append_cons_lt_iff {c : Char} {u v : List Char} (hu : ∀ d ∈ u, c < d)
    (hv : ∀ d ∈ v, c < d) (x y : List Char) :
    u ++ c :: x < v ++ c :: y ↔ u < v ∨ u = v ∧ x < y := by
  induction u generalizing v with
  | nil =>
    cases v with
    | nil => simp
    | cons d v =>
      have hd := hv d (by simp)
      simp [List.cons_lt_cons_iff, hd]
  | cons a u ih =>
    have ha := hu a (by simp)
    cases v with
    | nil =>
      have hnot : ¬ a < c := Char.lt_asymm ha
      have hne : a ≠ c := fun h => Char.lt_irrefl c (h ▸ ha)
      simp [List.cons_lt_cons_iff, hnot, hne]
    | cons d v =>
      have hrest := @ih v (fun e he => hu e (List.mem_cons_of_mem a he))
        fun e he => hv e (List.mem_cons_of_mem d he)
      simp only [List.cons_append, List.cons_lt_cons_iff, hrest, List.cons.injEq]
      grind

/-! ## 3. Padded numbers -/

section Padded

variable {width n m : Nat}

/-- Padded numbers are in the order of the numbers. -/
theorem padded_lt_iff (hwidth : 0 < width) (hn : n < Nat.pow 10 width)
    (hm : m < Nat.pow 10 width) : padded width n < padded width m ↔ n < m := by
  have hlength : (padded width n).length = (padded width m).length := by
    rw [length_padded hwidth hn, length_padded hwidth hm]
  rw [lt_iff_digitsValue_lt (fun _ => isDigit_of_mem_padded) (fun _ => isDigit_of_mem_padded)
    hlength, digitsValue_padded, digitsValue_padded]

theorem padded_inj (h : padded width n = padded width m) : n = m := by
  rw [← digitsValue_padded width n, h, digitsValue_padded]

/-- **A text that starts with a padded number** is in the order of the numbers, and with the
same number in the order of what follows. -/
theorem padded_append_lt_iff (hwidth : 0 < width) (hn : n < Nat.pow 10 width)
    (hm : m < Nat.pow 10 width) (x y : List Char) :
    padded width n ++ x < padded width m ++ y ↔ n < m ∨ n = m ∧ x < y := by
  have hlength : (padded width n).length = (padded width m).length := by
    rw [length_padded hwidth hn, length_padded hwidth hm]
  have heq : padded width n = padded width m ↔ n = m := ⟨padded_inj, congrArg _⟩
  rw [append_lt_append_iff hlength, padded_lt_iff hwidth hn hm, heq]

end Padded

end CalcJournal.Text
