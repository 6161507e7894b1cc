/-
CalcJournal.Proofs.Binary64.Nearest — rounding to the nearest number, and the order that it keeps.

What a rational is rounded to is described without an algorithm (`IsRounding`): from the overflow
bound on it is the infinity, and below the bound a finite number that no other one is nearer to,
with its last fraction bit clear when another one is as near. The cell in which the magnitude of
the rational lies decides it: the number at the rank of the cell is a rounding
(`InCell.isRounding`), and no other number is (`InCell.eq_of_isRounding`).

Of two rationals in order, the roundings are in order (`InCell.atMost`). The order is that of
comparisons, which do not tell the two zeros apart.
-/
import CalcJournal.Proofs.Binary64.Exact
import Mathlib.Algebra.Order.Ring.Abs

namespace CalcJournal.Binary64

/-! ## 1. Distances -/

section Distances

variable {a b q : ℚ}

/-- Distances compare as their squares do, and the squares differ by a product. -/
theorem abs_sub_le_abs_sub_iff : |q - a| ≤ |q - b| ↔ 0 ≤ (b - a) * (a + b - 2 * q) := by
  have hproduct : (q - b) ^ 2 - (q - a) ^ 2 = (b - a) * (a + b - 2 * q) := by ring
  rw [← sq_le_sq, ← sub_nonneg, hproduct]

/-- The lower one of two numbers is no farther away exactly up to their midpoint. -/
theorem abs_sub_le_abs_sub_iff_le (h : a < b) : |q - a| ≤ |q - b| ↔ q ≤ (a + b) / 2 := by
  rw [abs_sub_le_abs_sub_iff, mul_nonneg_iff_of_pos_left (sub_pos.2 h)]
  constructor <;> intro <;> linarith

/-- The higher one of two numbers is no farther away exactly from their midpoint on. -/
theorem abs_sub_le_abs_sub_iff_ge (h : a < b) : |q - b| ≤ |q - a| ↔ (a + b) / 2 ≤ q := by
  rw [abs_sub_le_abs_sub_iff, ← neg_mul_neg, neg_sub, mul_nonneg_iff_of_pos_left (sub_pos.2 h)]
  constructor <;> intro <;> linarith

end Distances

section Nearest

variable {rank other : ℕ} {q : ℚ}

/-- No magnitude is nearer than the one whose cell it is. -/
theorem InCell.abs_sub_le (h : InCell rank q) (other : ℕ) :
    |q - magnitude rank| ≤ |q - magnitude other| := by
  rcases Nat.lt_trichotomy other rank with hlt | rfl | hgt
  · have hbefore : magnitude other ≤ magnitude (rank - 1) :=
      magnitude_strictMono.monotone (by omega)
    have hlow := h.low
    rw [midpoint] at hlow
    exact (abs_sub_le_abs_sub_iff_ge (magnitude_strictMono hlt)).2 (by linarith)
  · exact le_rfl
  · have hbehind : magnitude (rank + 1) ≤ magnitude other := magnitude_strictMono.monotone hgt
    have hhigh := h.high
    rw [midpoint_succ] at hhigh
    exact (abs_sub_le_abs_sub_iff_le (magnitude_strictMono hgt)).2 (by linarith)

/-- Another magnitude is as near only when the rank is even. -/
theorem InCell.even_of_tie (h : InCell rank q) (hne : other ≠ rank)
    (htie : |q - magnitude other| ≤ |q - magnitude rank|) : rank % 2 = 0 := by
  by_contra hnot
  obtain ⟨hlow, hhigh⟩ := h.odd (Nat.mod_two_ne_zero.1 hnot)
  rw [midpoint] at hlow
  rw [midpoint_succ] at hhigh
  rcases Nat.lt_or_gt_of_ne hne with hlt | hgt
  · have hbefore : magnitude other ≤ magnitude (rank - 1) :=
      magnitude_strictMono.monotone (by omega)
    have hmidpoint := (abs_sub_le_abs_sub_iff_le (magnitude_strictMono hlt)).1 htie
    linarith
  · have hbehind : magnitude (rank + 1) ≤ magnitude other := magnitude_strictMono.monotone hgt
    have hmidpoint := (abs_sub_le_abs_sub_iff_ge (magnitude_strictMono hgt)).1 htie
    linarith

/-- A magnitude to which no finite one is nearer, nor as near unless the rank is even, lies in the
cell of the rank. -/
theorem inCell_of_nearest (hrank : rank < topRank) (hnonneg : 0 ≤ q) (hbound : q < overflowBound)
    (hnear : ∀ other < topRank, |q - magnitude rank| ≤ |q - magnitude other|)
    (heven : ∀ other < topRank, other ≠ rank →
      |q - magnitude other| = |q - magnitude rank| → rank % 2 = 0) :
    InCell rank q := by
  have hbefore : 0 < rank → magnitude (rank - 1) < magnitude rank := fun hpos =>
    magnitude_strictMono (by omega)
  have hbehind : magnitude rank < magnitude (rank + 1) := magnitude_strictMono (by omega)
  -- the neighbours decide, and behind the last finite magnitude the bound does
  have hlast : rank + 1 = topRank ∨ rank + 1 < topRank := Nat.eq_or_lt_of_le hrank
  have hlow : midpoint rank ≤ q := by
    rcases Nat.eq_zero_or_pos rank with rfl | hpos
    · rw [midpoint_zero]
      exact hnonneg
    · exact (abs_sub_le_abs_sub_iff_ge (hbefore hpos)).1 (hnear (rank - 1) (by omega))
  have hhigh : q ≤ midpoint (rank + 1) := by
    rcases hlast with hlast | hnext
    · rw [hlast, midpoint_topRank]
      exact hbound.le
    · rw [midpoint_succ]
      exact (abs_sub_le_abs_sub_iff_le hbehind).1 (hnear (rank + 1) hnext)
  refine ⟨hlow, hhigh, fun hodd => ⟨lt_of_le_of_ne hlow fun htie => ?_,
    lt_of_le_of_ne hhigh fun htie => ?_⟩⟩
  · have hback := (abs_sub_le_abs_sub_iff_le (hbefore (by omega))).2 htie.ge
    have hsame := le_antisymm hback (hnear (rank - 1) (by omega))
    have := heven (rank - 1) (by omega) (by omega) hsame
    omega
  · rcases hlast with hlast | hnext
    · rw [hlast, midpoint_topRank] at htie
      exact absurd htie hbound.ne
    · rw [midpoint_succ] at htie
      have hback := (abs_sub_le_abs_sub_iff_ge hbehind).2 htie.ge
      have hsame := le_antisymm hback (hnear (rank + 1) hnext)
      have := heven (rank + 1) hnext (by omega) hsame
      omega

end Nearest

/-! ## 2. Signs -/

section Signs

variable {negative sign : Bool} {p q : ℚ}

theorem withSign_injective : Function.Injective (withSign negative) := by
  intro a b h
  cases negative with
  | false => exact h
  | true => exact neg_inj.1 h

theorem abs_withSign (h : 0 ≤ q) : |withSign negative q| = q := by
  cases negative with
  | false => exact abs_of_nonneg h
  | true => exact (abs_neg q).trans (abs_of_nonneg h)

/-- Only zero is the same behind different signs. -/
theorem sign_eq_of_withSign_eq (hq : 0 ≤ q) (hp : 0 ≤ p)
    (h : withSign negative q = withSign sign p) (hne : withSign negative q ≠ 0) :
    negative = sign := by
  cases negative <;> cases sign <;>
    simp only [withSign, Bool.false_eq_true, if_false, if_true] at h hne ⊢
  · exact absurd (by linarith) hne
  · exact absurd (by linarith) hne

/-- Behind the same sign, numbers are as far apart as their magnitudes. -/
theorem abs_withSign_sub : |withSign negative q - withSign negative p| = |q - p| := by
  cases negative with
  | false => rfl
  | true => rw [withSign, withSign, if_pos rfl, if_pos rfl, neg_sub_neg, abs_sub_comm]

/-- Behind any signs, numbers are at least as far apart as their magnitudes. -/
theorem abs_sub_le_abs_withSign_sub (hq : 0 ≤ q) (hp : 0 ≤ p) :
    |q - p| ≤ |withSign negative q - withSign sign p| := by
  have h := abs_abs_sub_abs_le (withSign negative q) (withSign sign p)
  rwa [abs_withSign hq, abs_withSign hp] at h

/-- Behind different signs, numbers other than zero are farther apart. -/
theorem abs_sub_lt_abs_withSign_sub (hq : 0 < q) (hp : 0 < p) :
    |q - p| < |withSign negative q - withSign (!negative) p| := by
  have hsum : |withSign negative q - withSign (!negative) p| = q + p := by
    rw [← abs_of_pos (add_pos hq hp)]
    cases negative with
    | false => exact congrArg abs (sub_neg_eq_add q p)
    | true =>
      rw [← abs_neg (q + p), neg_add']
      rfl
  rw [hsum, abs_sub_lt_iff]
  constructor <;> linarith

end Signs

/-! ## 3. Rounding -/

/-- Rounding to the nearest number, of two equally near ones to the even one, described without
an algorithm. Below the bound the number is finite: of all finite numbers, of either sign and down
to the subnormal ones and to zero, none is nearer, and one that stands for something else is as
near only when the last fraction bit is clear. From the bound on it is the infinity. -/
inductive IsRounding (negative : Bool) (q : ℚ) : Binary64 → Prop where
  | overflow (bound : overflowBound ≤ |q|) : IsRounding negative q (.infinite negative)
  | nearest (rank : Fin topRank) (bound : |q| < overflowBound)
      (near : ∀ (sign : Bool) (other : Fin topRank),
        |q - exactValue negative rank| ≤ |q - exactValue sign other|)
      (even : ∀ (sign : Bool) (other : Fin topRank),
        exactValue sign other ≠ exactValue negative rank →
        |q - exactValue sign other| = |q - exactValue negative rank| →
        fractionField rank % 2 = 0) :
      IsRounding negative q (.finite negative rank)

theorem fractionField_mod_two (rank : ℕ) : fractionField rank % 2 = rank % 2 := by
  unfold fractionField
  omega

namespace InCell

variable {negative sign : Bool} {rank other : ℕ} {q : ℚ}

/-- Another number, of either sign, is as near only when the rank is even. -/
theorem even_of_signed_tie (h : InCell rank q)
    (hne : exactValue sign other ≠ exactValue negative rank)
    (htie : |withSign negative q - exactValue sign other| = |q - magnitude rank|) :
    rank % 2 = 0 := by
  by_cases hsame : other = rank
  · -- the same magnitude behind the other sign is farther, unless there is nothing but zero
    rw [hsame] at hne htie
    obtain rfl : sign = !negative := by
      rw [← Bool.not_eq_not, Bool.not_not]
      exact fun h => hne (by rw [h])
    by_contra hnot
    have hodd : rank % 2 = 1 := Nat.mod_two_ne_zero.1 hnot
    have hq : 0 < q := (midpoint_nonneg rank).trans_lt (h.odd hodd).1
    have hp : 0 < magnitude rank :=
      (magnitude_nonneg 0).trans_lt (magnitude_strictMono (by omega))
    exact absurd htie (abs_sub_lt_abs_withSign_sub hq hp).ne'
  · refine h.even_of_tie hsame ?_
    rw [← htie]
    exact abs_sub_le_abs_withSign_sub h.nonneg (magnitude_nonneg other)

/-- The number at the rank of the cell is a rounding. -/
theorem isRounding (h : InCell rank q) :
    IsRounding negative (withSign negative q) (ofRank negative rank) := by
  have habs : |withSign negative q| = q := abs_withSign h.nonneg
  have hself : |withSign negative q - exactValue negative rank| = |q - magnitude rank| :=
    abs_withSign_sub
  unfold ofRank
  split
  case isFalse hover =>
    refine .overflow ?_
    rw [habs]
    exact h.topRank_le_iff.1 (Nat.le_of_not_lt hover)
  case isTrue hfinite =>
    refine .nearest ⟨rank, hfinite⟩ ?_ ?_ ?_
    · rw [habs, ← not_le, ← h.topRank_le_iff]
      exact Nat.not_le_of_lt hfinite
    · intro sign other
      rw [hself]
      exact (h.abs_sub_le other).trans
        (abs_sub_le_abs_withSign_sub h.nonneg (magnitude_nonneg other))
    · intro sign other hne htie
      rw [fractionField_mod_two]
      exact h.even_of_signed_tie hne (htie.trans hself)

/-- No other number is a rounding. -/
theorem eq_of_isRounding {x : Binary64} (h : InCell rank q)
    (hx : IsRounding negative (withSign negative q) x) : x = ofRank negative rank := by
  have habs : |withSign negative q| = q := abs_withSign h.nonneg
  have hdistance (other : ℕ) :
      |withSign negative q - exactValue negative other| = |q - magnitude other| := abs_withSign_sub
  cases hx with
  | overflow hbound =>
    rw [habs] at hbound
    rw [ofRank, dif_neg (Nat.not_lt.2 (h.topRank_le_iff.2 hbound))]
  | nearest found hbound hnear heven =>
    rw [habs] at hbound
    have hcell : InCell found q := by
      refine inCell_of_nearest found.isLt h.nonneg hbound ?_ ?_
      · intro other hother
        rw [← hdistance, ← hdistance]
        exact hnear negative ⟨other, hother⟩
      · intro other hother hne htie
        rw [← hdistance, ← hdistance] at htie
        rw [← fractionField_mod_two]
        refine heven negative ⟨other, hother⟩ (fun hsame => hne ?_) htie
        exact magnitude_strictMono.injective (withSign_injective hsame)
    obtain rfl := hcell.unique h
    rw [ofRank, dif_pos found.isLt]

end InCell

/-! ## 4. Where zero, the subnormal numbers and the finite ones end -/

/-- A number other than zero whose exponent bits are clear. -/
def IsSubnormal : Binary64 → Prop
  | .finite _ rank => exponentField rank = 0 ∧ fractionField rank ≠ 0
  | _ => False

theorem ofRank_eq_zero_iff (negative : Bool) (rank : ℕ) :
    ofRank negative rank = zero negative ↔ ¬ 0 < rank := by
  unfold ofRank zero
  split
  case isTrue => simp
  case isFalse hover =>
    refine iff_of_false (by simp) ?_
    simp only [topRank] at hover
    omega

theorem isSubnormal_ofRank (negative : Bool) (rank : ℕ) :
    (ofRank negative rank).IsSubnormal ↔ 0 < rank ∧ rank < 2 ^ 52 := by
  unfold ofRank
  split
  case isTrue =>
    simp only [IsSubnormal, exponentField, fractionField]
    omega
  case isFalse hover =>
    refine iff_of_false (by simp [IsSubnormal]) ?_
    simp only [topRank] at hover
    omega

theorem ofRank_eq_infinite_iff (negative : Bool) (rank : ℕ) :
    ofRank negative rank = .infinite negative ↔ topRank ≤ rank := by
  unfold ofRank
  split
  case isTrue hfinite => simp [hfinite]
  case isFalse hover => simpa using hover

/-! ## 5. The order of the numbers -/

/-- The order of numbers as they are compared: the infinities are at either end, the two zeros
are equal, and nothing is comparable with the not-a-number value. -/
inductive AtMost : Binary64 → Binary64 → Prop where
  | least {x : Binary64} (h : x ≠ .nan) : AtMost (.infinite true) x
  | greatest {x : Binary64} (h : x ≠ .nan) : AtMost x (.infinite false)
  | finite {negative sign : Bool} {rank other : Fin topRank}
      (h : exactValue negative rank ≤ exactValue sign other) :
      AtMost (.finite negative rank) (.finite sign other)

theorem ofRank_ne_nan (negative : Bool) (rank : ℕ) : ofRank negative rank ≠ .nan := by
  unfold ofRank
  split <;> simp

section Order

variable {negative sign : Bool} {rank other : ℕ}

theorem exactValue_le_magnitude : exactValue negative rank ≤ magnitude rank := by
  have h := le_abs_self (exactValue negative rank)
  rwa [exactValue, abs_withSign (magnitude_nonneg rank)] at h

theorem neg_magnitude_le_exactValue : -magnitude rank ≤ exactValue negative rank := by
  have h := neg_abs_le (exactValue negative rank)
  rwa [exactValue, abs_withSign (magnitude_nonneg rank)] at h

/-- What a number without a sign is at most has no lower rank. -/
theorem le_of_exactValue_false_le (h : exactValue false rank ≤ exactValue sign other) :
    rank ≤ other :=
  magnitude_strictMono.le_iff_le.1 (LE.le.trans h exactValue_le_magnitude)

/-- What is at most a negative number has no lower rank. -/
theorem le_of_le_exactValue_true (h : exactValue negative rank ≤ exactValue true other) :
    other ≤ rank :=
  magnitude_strictMono.le_iff_le.1 (neg_le_neg_iff.1 (neg_magnitude_le_exactValue.trans h))

/-- Numbers are in the order of their exact values, also where a rank has run over. -/
theorem ofRank_atMost (h : exactValue negative rank ≤ exactValue sign other) :
    (ofRank negative rank).AtMost (ofRank sign other) := by
  by_cases hrank : rank < topRank
  · rw [ofRank, dif_pos hrank]
    by_cases hother : other < topRank
    · rw [ofRank, dif_pos hother]
      exact .finite h
    · rw [ofRank, dif_neg hother]
      cases sign with
      | false => exact .greatest (by simp)
      | true => exact absurd (le_of_le_exactValue_true h) (by omega)
  · rw [ofRank, dif_neg hrank]
    cases negative with
    | true => exact .least (ofRank_ne_nan sign other)
    | false =>
      have hover : ¬ other < topRank := by
        have := le_of_exactValue_false_le h
        omega
      rw [ofRank, dif_neg hover]
      cases sign with
      | false => exact .greatest (by simp)
      | true =>
        have hpos : magnitude 0 < magnitude rank :=
          magnitude_strictMono (Nat.lt_of_lt_of_le (by decide) (Nat.le_of_not_lt hrank))
        have hle : magnitude rank ≤ -magnitude other := h
        linarith [magnitude_nonneg other, magnitude_nonneg 0]

end Order

section Rounding

variable {negative sign : Bool} {rank other : ℕ} {p q : ℚ}

/-- Exact values are in the order of what is rounded to them. -/
theorem InCell.exactValue_le (h : InCell rank q) (hother : InCell other p)
    (hle : withSign negative q ≤ withSign sign p) :
    exactValue negative rank ≤ exactValue sign other := by
  cases negative with
  | false =>
    cases sign with
    | false => exact magnitude_strictMono.monotone (h.mono hother hle)
    | true =>
      -- what is not negative is at most what is not positive only when both are zero
      have hle : q ≤ -p := hle
      obtain rfl : q = 0 := by linarith [h.nonneg, hother.nonneg]
      obtain rfl : p = 0 := by linarith [hother.nonneg]
      obtain rfl := h.unique inCell_zero
      obtain rfl := hother.unique inCell_zero
      simp [exactValue, withSign, magnitude_zero]
  | true =>
    cases sign with
    | false => exact (neg_nonpos.2 (magnitude_nonneg rank)).trans (magnitude_nonneg other)
    | true =>
      have hle : p ≤ q := neg_le_neg_iff.1 hle
      exact neg_le_neg (magnitude_strictMono.monotone (hother.mono h hle))

/-- **Rounding keeps the order**: of two rationals in order, the roundings are in order. -/
theorem InCell.atMost (h : InCell rank q) (hother : InCell other p)
    (hle : withSign negative q ≤ withSign sign p) :
    (ofRank negative rank).AtMost (ofRank sign other) :=
  ofRank_atMost (h.exactValue_le hother hle)

end Rounding

end CalcJournal.Binary64
