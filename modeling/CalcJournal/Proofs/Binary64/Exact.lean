/-
CalcJournal.Proofs.Binary64.Exact — what the doubles stand for, as rationals.

A finite number stands for the rational that the fields of its interchange bits give: its fraction,
with a leading one before it from the exponent one on, times the power of two of its exponent
(`exactValue`). The units of a rank are this magnitude in multiples of 2^-1074 (`magnitude_eq`), so
magnitudes grow with the rank.

The midpoints between neighbours cut the line into cells, one for each rank, and a midpoint belongs
to the cell of the even one of its two ranks (`InCell`). The rank of the cell grows with what lies
in it (`InCell.mono`), and it reaches a given rank at the midpoint before that one
(`InCell.lt_iff_of_even`, `InCell.lt_iff_of_odd`). Three midpoints have a name of their own: the one
behind zero, the one before the least number with a leading bit, and the one before the infinity.
-/
import CalcJournal.Proofs.Binary64.Overflow
import Mathlib.Algebra.Order.Field.Power
import Mathlib.Algebra.Order.Ring.Rat
import Mathlib.Tactic.FieldSimp
import Mathlib.Tactic.Linarith
import Mathlib.Tactic.Positivity
import Mathlib.Tactic.Ring

namespace CalcJournal.Binary64

/-! ## 1. Exact values -/

/-- The exponent bits of the magnitude at a rank. -/
def exponentField (rank : ℕ) : ℕ := rank / 2 ^ 52

/-- The fraction bits of the magnitude at a rank. -/
def fractionField (rank : ℕ) : ℕ := rank % 2 ^ 52

/-- What the bits of the magnitude at a rank stand for. From the exponent one on, a leading one
stands before the fraction; the exponent zero has the same power of two as the exponent one. -/
def magnitude (rank : ℕ) : ℚ :=
  if exponentField rank = 0 then fractionField rank * 2 ^ (-1074 : ℤ)
  else (2 ^ 52 + fractionField rank) * 2 ^ ((exponentField rank : ℤ) - 1075)

/-- A magnitude behind a sign. -/
def withSign (negative : Bool) (q : ℚ) : ℚ := if negative then -q else q

/-- What the finite number of a sign and a rank stands for. -/
def exactValue (negative : Bool) (rank : ℕ) : ℚ := withSign negative (magnitude rank)

/-- One unit of the magnitudes. -/
def unitValue : ℚ := 2 ^ (-1074 : ℤ)

theorem unitValue_pos : 0 < unitValue := zpow_pos (by norm_num) _

/-- A power of natural numbers, as a rational. -/
theorem natCast_pow (b n : ℕ) : ((Nat.pow b n : ℕ) : ℚ) = (b : ℚ) ^ n := Nat.cast_pow b n

/-- The units of one make up one. -/
theorem unitsPerOne_mul_unitValue : (unitsPerOne : ℚ) * unitValue = 1 := by
  -- the exponent is kept as a variable, because a power as large as this one is not computed
  obtain ⟨n, hn⟩ : ∃ n : ℕ, n = 1074 := ⟨1074, rfl⟩
  have hunits : unitsPerOne = Nat.pow 2 n := by subst hn; decide +kernel
  have hexponent : (-1074 : ℤ) = -(n : ℤ) := by omega
  rw [hunits, natCast_pow, Nat.cast_ofNat, unitValue, hexponent, zpow_neg, zpow_natCast]
  exact mul_inv_cancel₀ (pow_ne_zero n two_ne_zero)

/-- A magnitude is its units. -/
theorem magnitude_eq (rank : ℕ) : magnitude rank = units rank * unitValue := by
  have hbinade : (2 : ℕ) ^ 52 = binade := rfl
  unfold magnitude exponentField fractionField
  rw [hbinade]
  rcases Nat.lt_or_ge rank binade with hlow | hhigh
  · have hexponent : rank / binade = 0 := Nat.div_eq_of_lt hlow
    have hunits : units rank = rank := by
      rw [units, significand_of_lt hlow, scale, hexponent]
      exact Nat.mul_one rank
    rw [if_pos hexponent, Nat.mod_eq_of_lt hlow, hunits, unitValue]
  · obtain ⟨e, he⟩ : ∃ e, rank / binade = e + 1 :=
      Nat.exists_eq_succ_of_ne_zero (Nat.div_pos hhigh (by decide)).ne'
    have hunits : units rank = (binade + rank % binade) * Nat.pow 2 e := by
      rw [units, significand_of_le hhigh, scale, he, Nat.add_sub_cancel]
    have hpower : (2 : ℚ) ^ (((e + 1 : ℕ) : ℤ) - 1075) = 2 ^ e * unitValue := by
      rw [unitValue, ← zpow_natCast, ← zpow_add₀ two_ne_zero]
      congr 1
      push_cast
      ring
    have hleading : (2 : ℚ) ^ 52 = binade := by norm_num [binade]
    rw [he, if_neg (Nat.succ_ne_zero e), hpower, hunits, hleading]
    rw [Nat.cast_mul, Nat.cast_add, natCast_pow, Nat.cast_ofNat, mul_assoc]

theorem magnitude_zero : magnitude 0 = 0 := by
  rw [magnitude_eq, units_zero, Nat.cast_zero, zero_mul]

theorem magnitude_nonneg (rank : ℕ) : 0 ≤ magnitude rank := by
  rw [magnitude_eq]
  exact mul_nonneg (Nat.cast_nonneg _) unitValue_pos.le

theorem magnitude_strictMono : StrictMono magnitude := by
  intro a b h
  rw [magnitude_eq, magnitude_eq]
  exact mul_lt_mul_of_pos_right (Nat.cast_lt.2 (units_lt_units h)) unitValue_pos

/-! ## 2. Midpoints -/

/-- The midpoint between the magnitude at a rank and the one before it. -/
def midpoint (rank : ℕ) : ℚ := (magnitude (rank - 1) + magnitude rank) / 2

theorem midpoint_succ (rank : ℕ) :
    midpoint (rank + 1) = (magnitude rank + magnitude (rank + 1)) / 2 := by
  rw [midpoint, Nat.add_sub_cancel]

theorem midpoint_nonneg (rank : ℕ) : 0 ≤ midpoint rank :=
  div_nonneg (add_nonneg (magnitude_nonneg _) (magnitude_nonneg _)) two_pos.le

theorem midpoint_strictMono : StrictMono midpoint := by
  intro a b h
  have hbefore : magnitude (a - 1) ≤ magnitude (b - 1) :=
    magnitude_strictMono.monotone (Nat.sub_le_sub_right h.le 1)
  have hat : magnitude a < magnitude b := magnitude_strictMono h
  unfold midpoint
  linarith

theorem midpoint_zero : midpoint 0 = 0 := by
  rw [midpoint, magnitude_zero, add_zero, zero_div]

theorem half_unit : (2 : ℚ) ^ (-1075 : ℤ) = unitValue / 2 := by
  rw [unitValue, div_eq_mul_inv, ← zpow_neg_one, ← zpow_add₀ two_ne_zero]
  rfl

/-- Behind zero it is half a unit. -/
theorem midpoint_one : midpoint 1 = 2 ^ (-1075 : ℤ) := by
  have hunit : units 1 = 1 := by decide
  rw [half_unit, midpoint, magnitude_zero, magnitude_eq, hunit, Nat.cast_one, one_mul, zero_add]

/-- Before the least number with a leading bit it is half a unit below that number. -/
theorem midpoint_normal : midpoint (2 ^ 52) = 2 ^ (-1022 : ℤ) - 2 ^ (-1075 : ℤ) := by
  have hleast : (2 : ℚ) ^ (-1022 : ℤ) = 2 ^ 52 * unitValue := by
    rw [unitValue, ← zpow_natCast, ← zpow_add₀ two_ne_zero]
    rfl
  have hat : units (2 ^ 52) = 2 ^ 52 := by decide +kernel
  have hbefore : units (2 ^ 52 - 1) = 2 ^ 52 - 1 := by decide +kernel
  rw [midpoint, half_unit, hleast, magnitude_eq, magnitude_eq, hat, hbefore]
  norm_num
  ring

/-- Before the infinity it is the bound of the finite numbers. -/
theorem midpoint_topRank : midpoint topRank = overflowBound := by
  have hone := unitsPerOne_mul_unitValue
  have hsum := congrArg (Nat.cast : ℕ → ℚ) units_overflow
  push_cast at hsum
  rw [midpoint, magnitude_eq, magnitude_eq, ← add_mul, hsum]
  generalize (unitsPerOne : ℚ) = ones at hone ⊢
  calc 2 * (overflowBound * ones) * unitValue / 2 = overflowBound * (ones * unitValue) := by ring
    _ = overflowBound := by rw [hone, mul_one]

/-! ## 3. Cells -/

/-- The cell of a rank: from the midpoint before its magnitude to the one behind it, with the
midpoints themselves when the rank is even. -/
structure InCell (rank : ℕ) (q : ℚ) : Prop where
  low : midpoint rank ≤ q
  high : q ≤ midpoint (rank + 1)
  odd : rank % 2 = 1 → midpoint rank < q ∧ q < midpoint (rank + 1)

section Interval

variable {den : ℕ}

/-- Half a unit, over a denominator: the ends of an interval and the quotients in it are whole
numbers of these. -/
theorem midpoint_units (hden : 0 < den) (a b : ℕ) : (magnitude a + magnitude b) / 2
    = (((units a + units b) * den : ℕ) : ℚ) * (unitValue / (2 * den)) := by
  have hpos : (0 : ℚ) < den := Nat.cast_pos.2 hden
  rw [magnitude_eq, magnitude_eq]
  push_cast
  field_simp

theorem quotient_units (num den : ℕ) : (num / den : ℚ)
    = ((2 * (num * unitsPerOne) : ℕ) : ℚ) * (unitValue / (2 * den)) := by
  have hone := unitsPerOne_mul_unitValue
  push_cast
  generalize (unitsPerOne : ℚ) = ones at hone ⊢
  calc (num / den : ℚ) = num * (ones * unitValue) / den := by rw [hone, mul_one]
    _ = 2 * (num * ones) * (unitValue / (2 * den)) := by ring

/-- The cell of a rank is its interval, with rationals in place of quotients of units. -/
theorem inCell_of_isNearest {rank num : ℕ} (hden : 0 < den)
    (h : IsNearest rank (num * unitsPerOne) den) : InCell rank (num / den) := by
  obtain ⟨hlow, hhigh, hodd⟩ := h
  have hpos : 0 < unitValue / (2 * den) :=
    div_pos unitValue_pos (mul_pos two_pos (Nat.cast_pos.2 hden))
  have hle : ∀ {a b : ℕ}, a ≤ b →
      (a : ℚ) * (unitValue / (2 * den)) ≤ b * (unitValue / (2 * den)) :=
    fun hab => mul_le_mul_of_nonneg_right (Nat.cast_le.2 hab) hpos.le
  have hlt : ∀ {a b : ℕ}, a < b →
      (a : ℚ) * (unitValue / (2 * den)) < b * (unitValue / (2 * den)) :=
    fun hab => mul_lt_mul_of_pos_right (Nat.cast_lt.2 hab) hpos
  refine ⟨?_, ?_, fun hrank => ⟨?_, ?_⟩⟩
  · rw [midpoint, midpoint_units hden, quotient_units]
    exact hle hlow
  · rw [midpoint_succ, midpoint_units hden, quotient_units]
    exact hle hhigh
  · rw [midpoint, midpoint_units hden, quotient_units]
    exact hlt (lt_of_le_of_ne hlow (hodd hrank).1)
  · rw [midpoint_succ, midpoint_units hden, quotient_units]
    exact hlt (lt_of_le_of_ne hhigh (hodd hrank).2)

end Interval

theorem inCell_zero : InCell 0 0 := ⟨midpoint_zero.le, midpoint_nonneg _, by simp⟩

namespace InCell

variable {rank other k : ℕ} {p q : ℚ}

theorem nonneg (h : InCell rank q) : 0 ≤ q := (midpoint_nonneg rank).trans h.low

/-- An even rank is reached at the midpoint before it. -/
theorem lt_iff_of_even (h : InCell rank q) (heven : k % 2 = 0) : rank < k ↔ q < midpoint k := by
  constructor
  · intro hlt
    rcases Nat.lt_or_ge (rank + 1) k with hgap | hlast
    · exact h.high.trans_lt (midpoint_strictMono hgap)
    · obtain rfl : k = rank + 1 := by omega
      exact (h.odd (by omega)).2
  · intro hlt
    by_contra hge
    have hreached := midpoint_strictMono.monotone (Nat.le_of_not_lt hge)
    exact absurd (hlt.trans_le hreached) (not_lt.2 h.low)

/-- An odd rank is reached behind the midpoint before it. -/
theorem lt_iff_of_odd (h : InCell rank q) (hodd : k % 2 = 1) : rank < k ↔ q ≤ midpoint k := by
  constructor
  · intro hlt
    exact h.high.trans (midpoint_strictMono.monotone hlt)
  · intro hle
    by_contra hge
    rcases Nat.eq_or_lt_of_le (Nat.le_of_not_lt hge) with rfl | hgap
    · exact absurd (h.odd hodd).1 (not_lt.2 hle)
    · exact absurd (hle.trans_lt (midpoint_strictMono hgap)) (not_lt.2 h.low)

/-- The rank grows with what lies in the cell. -/
theorem mono (h : InCell rank q) (hother : InCell other p) (hle : q ≤ p) : rank ≤ other := by
  refine Nat.le_of_lt_succ ?_
  rcases Nat.mod_two_eq_zero_or_one other with heven | hodd
  · exact (h.lt_iff_of_odd (by omega)).2 (hle.trans hother.high)
  · exact (h.lt_iff_of_even (by omega)).2 (hle.trans_lt (hother.odd hodd).2)

/-- Nothing lies in two cells. -/
theorem unique (h : InCell rank q) (hother : InCell other q) : rank = other :=
  Nat.le_antisymm (h.mono hother le_rfl) (hother.mono h le_rfl)

/-- Half a unit still belongs to zero. -/
theorem pos_iff (h : InCell rank q) : 0 < rank ↔ 2 ^ (-1075 : ℤ) < q := by
  have hone : rank < 1 ↔ q ≤ midpoint 1 := h.lt_iff_of_odd rfl
  rw [← midpoint_one, Nat.pos_iff_ne_zero, ne_eq, ← Nat.lt_one_iff, hone, not_le]

/-- The last midpoint before them belongs to the numbers with a leading bit. -/
theorem lt_normal_iff (h : InCell rank q) :
    rank < 2 ^ 52 ↔ q < 2 ^ (-1022 : ℤ) - 2 ^ (-1075 : ℤ) := by
  rw [h.lt_iff_of_even rfl, midpoint_normal]

/-- The bound belongs to the infinity. -/
theorem topRank_le_iff (h : InCell rank q) : topRank ≤ rank ↔ (overflowBound : ℚ) ≤ q := by
  rw [← not_lt, h.lt_iff_of_even (by decide), midpoint_topRank, not_lt]

end InCell

end CalcJournal.Binary64
