/-
CalcJournal.Proofs.Binary64.Scientific — digits with an exponent are read as the nearest
number.

`ofScientific` has two shortcuts: for an exponent so large that the number must be an
infinity, and for one so small that it must be a zero. Neither may be taken for digits that
lie in the interval of a finite rank other than zero. So the interval bounds the exponent:
from above because the magnitude before the infinity is 2^1024 units of one, from below
because the digits have to make up for what the exponent takes away.
-/
import CalcJournal.Proofs.Binary64.Shortest

namespace CalcJournal.Binary64

/-! ## 1. What an interval leaves to the exponent -/

/-- From 10^401 on no finite magnitude is reached. -/
theorem units_topRank_lt (n : Nat) : units topRank < Nat.pow 10 (n + 401) * unitsPerOne := by
  induction n with
  | zero => decide +kernel
  | succ n ih =>
    have hstep : Nat.pow 10 (n + 1 + 401) = Nat.pow 10 (n + 401) * 10 := by
      rw [Nat.add_right_comm]
      rfl
    rw [hstep, Nat.mul_right_comm]
    omega

theorem four_mul_unitsPerOne_lt (n : Nat) : 4 * unitsPerOne < Nat.pow 10 (n + 401) := by
  induction n with
  | zero => decide +kernel
  | succ n ih =>
    have hstep : Nat.pow 10 (n + 1 + 401) = Nat.pow 10 (n + 401) * 10 := by
      rw [Nat.add_right_comm]
      rfl
    omega

/-- A quotient in the interval of a rank other than zero is at least half a unit. -/
theorem le_of_isNearest {rank num den : Nat} (hpos : 0 < rank) (h : IsNearest rank num den) :
    den ≤ 2 * num := by
  have hunit : 1 ≤ units (rank - 1) + units rank := by
    have := units_lt_units hpos
    omega
  calc den = 1 * den := (Nat.one_mul den).symm
    _ ≤ (units (rank - 1) + units rank) * den := Nat.mul_le_mul_right den hunit
    _ ≤ 2 * num := h.1

/-- A quotient in the interval of a finite rank is not beyond the rank that overflows. -/
theorem le_topRank_of_isNearest {rank num den : Nat} (hfinite : rank < topRank)
    (h : IsNearest rank num den) : num ≤ units topRank * den := by
  have hsum : units rank + units (rank + 1) ≤ 2 * units topRank := by
    have h1 : units rank ≤ units topRank := units_le_units (Nat.le_of_lt hfinite)
    have h2 : units (rank + 1) ≤ units topRank := units_le_units hfinite
    omega
  have hnum := Nat.le_trans h.2.1 (Nat.mul_le_mul_right den hsum)
  rw [Nat.mul_assoc] at hnum
  exact Nat.le_of_mul_le_mul_left hnum (by decide)

section Exponent

variable {rank : Fin topRank} {digits : Nat} {exponent : Int}

theorem digits_pos (hpos : 0 < rank.val)
    (h : IsNearest rank (digits * Nat.pow 10 exponent.toNat * unitsPerOne)
      (Nat.pow 10 (-exponent).toNat)) : 0 < digits := by
  refine Nat.pos_of_ne_zero fun hzero => ?_
  have hle := le_of_isNearest hpos h
  rw [hzero, Nat.zero_mul, Nat.zero_mul] at hle
  exact absurd (ten_pow_pos _) (Nat.not_lt.2 hle)

/-- An exponent that takes every number beyond the finite ones takes these digits there. -/
theorem exponent_le (hdigits : 0 < digits)
    (h : IsNearest rank (digits * Nat.pow 10 exponent.toNat * unitsPerOne)
      (Nat.pow 10 (-exponent).toNat)) : exponent ≤ 400 := by
  refine Int.not_lt.1 fun hlarge => ?_
  have hden : Nat.pow 10 (-exponent).toNat = 1 := by
    rw [show (-exponent).toNat = 0 by omega]
  have hnum := le_topRank_of_isNearest rank.isLt h
  rw [hden, Nat.mul_one] at hnum
  obtain ⟨n, hn⟩ : ∃ n, exponent.toNat = n + 401 := ⟨exponent.toNat - 401, by omega⟩
  have hbig : Nat.pow 10 (n + 401) * unitsPerOne
      ≤ digits * Nat.pow 10 exponent.toNat * unitsPerOne := by
    rw [hn]
    exact Nat.mul_le_mul_right unitsPerOne (Nat.le_mul_of_pos_left _ hdigits)
  exact absurd (Nat.le_trans hbig hnum) (Nat.not_le.2 (units_topRank_lt n))

/-- An exponent that these digits cannot make up for takes them to zero. -/
theorem le_exponent (hpos : 0 < rank.val)
    (h : IsNearest rank (digits * Nat.pow 10 exponent.toNat * unitsPerOne)
      (Nat.pow 10 (-exponent).toNat)) : -(400 + digits.log2 : Int) ≤ exponent := by
  refine Int.not_lt.1 fun hsmall => ?_
  have hden := le_of_isNearest hpos h
  have hzero : exponent.toNat = 0 := by omega
  rw [hzero, show digits * Nat.pow 10 0 = digits from Nat.mul_one _, ← Nat.mul_assoc] at hden
  -- the digits have at most as many bits as the power of ten below has digits
  have hbits : 2 * digits ≤ Nat.pow 10 digits.log2 * 4 := by
    have htwo : Nat.pow 2 digits.log2 ≤ Nat.pow 10 digits.log2 :=
      Nat.pow_le_pow_left (by decide) _
    have hlog : digits < Nat.pow 2 (digits.log2 + 1) := Nat.lt_log2_self
    rw [two_pow_succ] at hlog
    omega
  obtain ⟨n, hn⟩ : ∃ n, (-exponent).toNat = digits.log2 + (n + 401) :=
    ⟨(-exponent).toNat - 401 - digits.log2, by omega⟩
  have hpow : Nat.pow 10 (-exponent).toNat
      = Nat.pow 10 digits.log2 * Nat.pow 10 (n + 401) := by
    rw [hn]
    exact Nat.pow_add 10 _ _
  have hlt := Nat.mul_lt_mul_of_pos_left (four_mul_unitsPerOne_lt n) (ten_pow_pos digits.log2)
  have hle : 2 * digits * unitsPerOne ≤ Nat.pow 10 digits.log2 * (4 * unitsPerOne) := by
    rw [← Nat.mul_assoc]
    exact Nat.mul_le_mul_right unitsPerOne hbits
  omega

end Exponent

/-! ## 2. Reading digits with an exponent -/

/-- **Digits with an exponent that lie in the interval of a rank are read as the number at
that rank.** -/
theorem ofScientific_eq_finite (negative : Bool) {rank : Fin topRank} (hpos : 0 < rank.val)
    {digits : Nat} {exponent : Int}
    (h : IsNearest rank (digits * Nat.pow 10 exponent.toNat * unitsPerOne)
      (Nat.pow 10 (-exponent).toNat)) :
    ofScientific negative digits exponent = .finite negative rank := by
  have hdigits := digits_pos hpos h
  have hhigh := exponent_le hdigits h
  have hlow := le_exponent hpos h
  have hrank : ofRank negative rank.val = .finite negative rank := by
    rw [ofRank, dif_pos rank.isLt]
  rw [ofScientific, if_neg (by omega), if_neg (by omega), if_neg (by omega)]
  split
  case isTrue hwhole =>
    rw [show (-exponent).toNat = 0 by omega] at h
    rw [ofDecimal_eq_ofRank negative h, hrank]
  case isFalse hfraction =>
    rw [show exponent.toNat = 0 by omega,
      show digits * Nat.pow 10 0 = digits from Nat.mul_one _] at h
    rw [ofDecimal_eq_ofRank negative h, hrank]

/-- A shortest decimal is read as the number that it was found for, however its value is
spread over the digits and the exponent. -/
theorem ofScientific_of_shortest (tie : Tie) (negative : Bool) (rank : Fin topRank)
    (hpos : 0 < rank.val) {digits : Nat} {exponent : Int}
    (hsame : digits * Nat.pow 10 exponent.toNat
        * Nat.pow 10 (-(shortest tie rank).exponent).toNat
      = (shortest tie rank).digits * Nat.pow 10 (shortest tie rank).exponent.toNat
        * Nat.pow 10 (-exponent).toNat) :
    ofScientific negative digits exponent = .finite negative rank := by
  refine ofScientific_eq_finite negative hpos ?_
  refine (isNearest_shortest tie hpos).of_same_quotient (ten_pow_pos _) (ten_pow_pos _) ?_
  rw [Nat.mul_right_comm, ← hsame, Nat.mul_right_comm]

end CalcJournal.Binary64
