/-
CalcJournal.Proofs.Binary64.Overflow — where the finite numbers end.

A quotient is rounded to a rank, and the rank that follows the largest finite magnitude is
the infinity. Its interval starts half a step before the power of two that would be the next
magnitude, and that end belongs to it, because its rank is even. So a decimal is read as a
finite number exactly when it is below `overflowBound`, and what is below is decided on whole
numbers.
-/
import CalcJournal.Proofs.Binary64.Shortest

namespace CalcJournal.Binary64

/-- Half a step below the power of two that follows the largest finite magnitude. -/
def overflowBound : Nat := Nat.pow 2 1024 - Nat.pow 2 970

/-- The bound is the midpoint between the largest finite magnitude and the next one. -/
theorem units_overflow :
    units (topRank - 1) + units topRank = 2 * (overflowBound * unitsPerOne) := by
  decide +kernel

/-- A rank has run over exactly when what it was found for is not below the midpoint in front
of the rank that overflows. -/
theorem topRank_le_iff {rank num den : Nat} (hden : 0 < den) (h : IsNearest rank num den) :
    topRank ≤ rank ↔ (units (topRank - 1) + units topRank) * den ≤ 2 * num := by
  constructor
  · intro hover
    have hbefore : units (topRank - 1) ≤ units (rank - 1) := units_le_units (by omega)
    have hsum : units (topRank - 1) + units topRank ≤ units (rank - 1) + units rank :=
      Nat.add_le_add hbefore (units_le_units hover)
    exact Nat.le_trans (Nat.mul_le_mul_right den hsum) h.1
  · intro hmidpoint
    refine Nat.le_of_not_lt fun hfinite => ?_
    have hrank : units rank ≤ units (topRank - 1) := units_le_units (by omega)
    have hnext : units (rank + 1) ≤ units topRank := units_le_units hfinite
    have hsum := Nat.mul_le_mul_right den (Nat.add_le_add hrank hnext)
    -- the quotient would be the midpoint itself, which the odd rank before does not have
    have heq := Nat.eq_of_mul_eq_mul_right hden
      (Nat.le_antisymm hsum (Nat.le_trans hmidpoint h.2.1))
    have hlast : rank = topRank - 1 := by
      rcases Nat.lt_or_ge rank (topRank - 1) with hlt | hge
      · have := units_lt_units hlt
        omega
      · omega
    have hodd : rank % 2 = 1 := by rw [hlast]; decide
    refine (h.2.2 hodd).2 (Nat.le_antisymm h.2.1 ?_)
    rw [heq]
    exact hmidpoint

theorem isFinite_ofRank (negative : Bool) (rank : Nat) :
    (ofRank negative rank).isFinite = true ↔ rank < topRank := by
  unfold ofRank
  split
  case isTrue hlt => simp [isFinite, hlt]
  case isFalse hge => simp [isFinite, hge]

/-- **A decimal is read as a finite number exactly when it is below the bound**, and as an
infinity from the bound on. -/
theorem isFinite_ofDecimal (negative : Bool) (digits places : Nat) :
    (ofDecimal negative digits places).isFinite = true ↔
      digits < overflowBound * Nat.pow 10 places := by
  have hden := ten_pow_pos places
  have hnearest := isNearest_nearestRank (digits * unitsPerOne) hden
  have hscale : (units (topRank - 1) + units topRank) * Nat.pow 10 places
      = 2 * (overflowBound * Nat.pow 10 places * unitsPerOne) := by
    rw [units_overflow, Nat.mul_assoc, Nat.mul_right_comm]
  have hpos : 0 < unitsPerOne := by decide +kernel
  rw [ofDecimal, round, isFinite_ofRank, ← Nat.not_le, topRank_le_iff hden hnearest, hscale,
    Nat.mul_le_mul_left_iff (by decide), Nat.mul_le_mul_right_iff hpos, Nat.not_le]

end CalcJournal.Binary64
