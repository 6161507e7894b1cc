/-
CalcJournal.Proofs.Binary64.Rounding — the nearest rank is nearest.

The magnitudes grow strictly with the rank (`units_lt_units`), so the line of exact
magnitudes falls into intervals, one for each rank, whose ends are the midpoints
between neighbours. A midpoint belongs to the even one of its two ranks. `IsNearest`
says that an exact quotient lies in the interval of a rank; no quotient lies in two
(`isNearest_unique`), and `nearestRank` finds the one that holds it
(`isNearest_nearestRank`).

The rank is found from a window: with the scale `s`, the ranks from `s * binade` on are
the multiples of `2 ^ s` up to twice `binade`, both ends included, and below `binade`
only where `s` is zero (`units_window`).
-/
import CalcJournal.Binary64.Rounding

namespace CalcJournal.Binary64

/-! ## 1. Ranks, significands and scales -/

theorem two_pow_succ (n : Nat) : Nat.pow 2 (n + 1) = 2 * Nat.pow 2 n := by
  rw [Nat.mul_comm]; rfl

theorem two_pow_pos (n : Nat) : 0 < Nat.pow 2 n := Nat.two_pow_pos n

theorem significand_of_lt {rank : Nat} (h : rank < binade) : significand rank = rank :=
  if_pos h

/-- From there on the significand has one leading bit more. -/
theorem significand_of_le {rank : Nat} (h : binade ≤ rank) :
    significand rank = binade + rank % binade := if_neg (by omega)

/-- A rank is made up of its scale and its significand. -/
theorem scale_mul_add_significand (rank : Nat) :
    scale rank * binade + significand rank = rank := by
  rcases Nat.lt_or_ge rank binade with h | h
  · rw [significand_of_lt h]; simp only [scale, binade] at *; omega
  · rw [significand_of_le h]; simp only [scale, binade] at *; omega

theorem significand_lt (rank : Nat) : significand rank < 2 * binade := by
  rcases Nat.lt_or_ge rank binade with h | h
  · rw [significand_of_lt h]; omega
  · rw [significand_of_le h]; simp only [binade] at *; omega

/-- Above the scale zero a significand fills a binade. -/
theorem scale_eq_zero_or_le_significand (rank : Nat) :
    scale rank = 0 ∨ binade ≤ significand rank := by
  rcases Nat.lt_or_ge rank binade with h | h
  · left; simp only [scale, binade] at *; omega
  · right; rw [significand_of_le h]; omega

/-- The ranks of a window are the multiples of its power of two. -/
theorem units_window {s k : Nat} (hs : s = 0 ∨ binade ≤ k) (hk : k ≤ 2 * binade) :
    units (s * binade + k) = k * Nat.pow 2 s := by
  rcases Nat.lt_or_ge k binade with hlow | hhigh
  · -- below one binade the scale is zero and each unit is a rank
    obtain rfl : s = 0 := by omega
    have hscale : scale k = 0 := by simp only [scale, binade] at *; omega
    rw [Nat.zero_mul, Nat.zero_add, units, hscale, significand_of_lt hlow]
  · have hfull : binade ≤ s * binade + k := Nat.le_add_left_of_le hhigh
    rcases Nat.lt_or_ge k (2 * binade) with hmid | htop
    · have hscale : scale (s * binade + k) = s := by simp only [scale, binade] at *; omega
      have hmod : binade + (s * binade + k) % binade = k := by
        simp only [binade] at *; omega
      rw [units, hscale, significand_of_le hfull, hmod]
    · -- the upper end is the first rank of the next window
      obtain rfl : k = 2 * binade := by omega
      have hscale : scale (s * binade + 2 * binade) = s + 1 := by
        simp only [scale, binade] at *; omega
      have hmod : binade + (s * binade + 2 * binade) % binade = binade := by
        simp only [binade] at *; omega
      rw [units, hscale, significand_of_le hfull, hmod, two_pow_succ,
        ← Nat.mul_assoc, Nat.mul_comm binade 2]

/-- The next magnitude is one power of two of the scale further. -/
theorem units_succ (rank : Nat) :
    units (rank + 1) = (significand rank + 1) * Nat.pow 2 (scale rank) := by
  have h := units_window (s := scale rank) (k := significand rank + 1)
    ((scale_eq_zero_or_le_significand rank).imp_right (Nat.le_succ_of_le))
    (significand_lt rank)
  rwa [← Nat.add_assoc, scale_mul_add_significand] at h

theorem units_lt_succ (rank : Nat) : units rank < units (rank + 1) := by
  rw [units_succ, units, Nat.add_mul, Nat.one_mul]
  exact Nat.lt_add_of_pos_right (two_pow_pos _)

theorem units_lt_units {a b : Nat} (h : a < b) : units a < units b := by
  induction b with
  | zero => omega
  | succ b ih =>
    rcases Nat.lt_or_ge a b with hlt | hge
    · exact Nat.lt_trans (ih hlt) (units_lt_succ b)
    · obtain rfl : a = b := by omega
      exact units_lt_succ a

theorem units_le_units {a b : Nat} (h : a ≤ b) : units a ≤ units b := by
  rcases Nat.eq_or_lt_of_le h with rfl | hlt
  · exact Nat.le_refl _
  · exact Nat.le_of_lt (units_lt_units hlt)

/-! ## 2. The interval of a rank -/

/-- A quotient of units lies between the midpoints on either side of the magnitude at a
rank, and on one of them only when the rank is even. -/
def IsNearest (rank num den : Nat) : Prop :=
  (units (rank - 1) + units rank) * den ≤ 2 * num ∧
  2 * num ≤ (units rank + units (rank + 1)) * den ∧
  (rank % 2 = 1 →
    (units (rank - 1) + units rank) * den ≠ 2 * num ∧
    2 * num ≠ (units rank + units (rank + 1)) * den)

theorem isNearest_zero {den : Nat} : IsNearest 0 0 den := by
  simp [IsNearest]

/-- The intervals of two ranks have no quotient in common. -/
theorem not_isNearest_of_lt {a b num den : Nat} (hden : 0 < den) (hab : a < b)
    (ha : IsNearest a num den) : ¬ IsNearest b num den := by
  rintro ⟨hlow, -, hodd⟩
  obtain ⟨-, hhigh, haodd⟩ := ha
  have h1 : units a ≤ units (b - 1) := units_le_units (by omega)
  have h2 : units (a + 1) ≤ units b := units_le_units hab
  have hsum : (units a + units (a + 1)) * den ≤ (units (b - 1) + units b) * den :=
    Nat.mul_le_mul_right den (by omega)
  -- the quotient is the midpoint that both intervals share, so both ranks are even
  have heq : (units a + units (a + 1)) * den = (units (b - 1) + units b) * den := by omega
  have hsame := Nat.eq_of_mul_eq_mul_right hden heq
  have hnext : a = b - 1 := by
    rcases Nat.lt_or_ge a (b - 1) with hlt | hge
    · have := units_lt_units hlt
      omega
    · omega
  rcases Nat.mod_two_eq_zero_or_one a with ha0 | ha1
  · exact (hodd (by omega)).1 (by omega)
  · exact (haodd ha1).2 (by omega)

/-- A quotient lies in the interval of one rank at most. -/
theorem isNearest_unique {a b num den : Nat} (hden : 0 < den)
    (ha : IsNearest a num den) (hb : IsNearest b num den) : a = b := by
  rcases Nat.lt_trichotomy a b with h | h | h
  · exact absurd hb (not_isNearest_of_lt hden h ha)
  · exact h
  · exact absurd ha (not_isNearest_of_lt hden h hb)

/-- Which interval holds a quotient does not depend on how the quotient is written. -/
theorem IsNearest.of_same_quotient {rank num den num' den' : Nat} (hden : 0 < den)
    (hden' : 0 < den') (hsame : num * den' = num' * den) (h : IsNearest rank num den) :
    IsNearest rank num' den' := by
  obtain ⟨hlow, hhigh, hodd⟩ := h
  -- both sides of each comparison are scaled by the other denominator
  have hdouble : 2 * num' * den = 2 * num * den' := by
    rw [Nat.mul_assoc, ← hsame, Nat.mul_assoc]
  have hend : ∀ e : Nat, e * den' * den = e * den * den' := fun e => Nat.mul_right_comm e _ _
  refine ⟨?_, ?_, fun h1 => ⟨fun heq => (hodd h1).1 ?_, fun heq => (hodd h1).2 ?_⟩⟩
  · refine Nat.le_of_mul_le_mul_right ?_ hden
    rw [hend, hdouble]
    exact Nat.mul_le_mul_right den' hlow
  · refine Nat.le_of_mul_le_mul_right ?_ hden
    rw [hend, hdouble]
    exact Nat.mul_le_mul_right den' hhigh
  · refine Nat.eq_of_mul_eq_mul_right hden' ?_
    rw [← hend, ← hdouble, heq]
  · refine Nat.eq_of_mul_eq_mul_right hden' ?_
    rw [← hend, ← hdouble, heq]

/-! ## 3. Rounding to a whole number -/

/-- A rounded quotient is at most half a unit away, and exactly half only when it is even. -/
theorem roundDiv_bounds (num : Nat) {den : Nat} (h : 0 < den) :
    2 * (roundDiv num den * den) ≤ 2 * num + den ∧
    2 * num ≤ 2 * (roundDiv num den * den) + den ∧
    (roundDiv num den % 2 = 1 →
      2 * (roundDiv num den * den) ≠ 2 * num + den ∧
      2 * num ≠ 2 * (roundDiv num den * den) + den) := by
  have hnum : num / den * den + num % den = num := Nat.div_add_mod' num den
  have hrem : num % den < den := Nat.mod_lt num h
  have hstep : (num / den + 1) * den = num / den * den + den := Nat.succ_mul _ _
  unfold roundDiv
  dsimp only
  split
  · omega
  · split
    · rw [hstep]; omega
    · -- exactly half way: the even one of the two is taken
      rcases Nat.mod_two_eq_zero_or_one (num / den) with h0 | h1
      · rw [h0, Nat.add_zero]; omega
      · rw [h1, hstep]; omega

/-! ## 4. The nearest rank -/

/-- The exponent that `nearestRank` takes from the whole part leaves less than twice a
binade, and a full binade unless it is zero. -/
theorem log2_sub_bounds (q : Nat) :
    (q.log2 - 52 = 0 ∨ binade * Nat.pow 2 (q.log2 - 52) ≤ q) ∧
    q < 2 * binade * Nat.pow 2 (q.log2 - 52) := by
  rcases Nat.lt_or_ge q (2 * binade) with hsmall | hlarge
  · have hlog : q.log2 - 52 = 0 := by
      rcases Nat.eq_zero_or_pos q with rfl | hpos
      · simp
      · have : q.log2 < 53 := (Nat.log2_lt (by omega)).2 hsmall
        omega
    rw [hlog]
    exact ⟨.inl rfl, by simpa using hsmall⟩
  · have hne : q ≠ 0 := by simp only [binade] at hlarge; omega
    have hlog : 53 ≤ q.log2 := (Nat.le_log2 hne).2 hlarge
    have hlow : Nat.pow 2 q.log2 ≤ q := Nat.log2_self_le hne
    have hhigh : q < Nat.pow 2 (q.log2 + 1) := Nat.lt_log2_self
    have hsplit : Nat.pow 2 q.log2 = binade * Nat.pow 2 (q.log2 - 52) := by
      have hadd : q.log2 = 52 + (q.log2 - 52) := by omega
      calc Nat.pow 2 q.log2 = Nat.pow 2 (52 + (q.log2 - 52)) := by rw [← hadd]
        _ = Nat.pow 2 52 * Nat.pow 2 (q.log2 - 52) := Nat.pow_add 2 52 _
        _ = binade * Nat.pow 2 (q.log2 - 52) := rfl
    rw [two_pow_succ, hsplit, ← Nat.mul_assoc] at hhigh
    exact ⟨.inr (hsplit ▸ hlow), hhigh⟩

/-- Half a unit of rounding reaches neither below the window nor above it. -/
theorem roundDiv_window {num unit : Nat} (hunit : 0 < unit) {s : Nat}
    (hlow : s = 0 ∨ binade * unit ≤ num) (hhigh : num < 2 * binade * unit) :
    (s = 0 ∨ binade ≤ roundDiv num unit) ∧ roundDiv num unit ≤ 2 * binade := by
  obtain ⟨hbelow, habove, -⟩ := roundDiv_bounds num hunit
  constructor
  · refine hlow.imp_right fun hlow => Nat.le_of_not_lt fun hlt => ?_
    have := Nat.mul_le_mul_right unit hlt
    rw [Nat.succ_mul] at this
    omega
  · refine Nat.le_of_not_lt fun hgt => ?_
    have := Nat.mul_le_mul_right unit hgt
    rw [Nat.succ_mul] at this
    omega

/-- Behind a window's upper end the steps are twice as long. -/
theorem le_units_window_succ {s k : Nat} (hs : s = 0 ∨ binade ≤ k) (hk : k ≤ 2 * binade) :
    (k + 1) * Nat.pow 2 s ≤ units (s * binade + k + 1) := by
  rcases Nat.lt_or_ge k (2 * binade) with hlt | hge
  · have hwindow : units (s * binade + (k + 1)) = (k + 1) * Nat.pow 2 s :=
      units_window (by omega) hlt
    exact Nat.le_of_eq (by rw [Nat.add_assoc, hwindow])
  · obtain rfl : k = 2 * binade := by omega
    have hnext : s * binade + 2 * binade + 1 = (s + 1) * binade + (binade + 1) := by
      simp only [binade]; omega
    have hwindow : units (s * binade + 2 * binade + 1)
        = (binade + 1) * Nat.pow 2 (s + 1) := by
      rw [hnext]
      exact units_window (by omega) (by simp only [binade]; omega)
    rw [hwindow, two_pow_succ, ← Nat.mul_assoc]
    exact Nat.mul_le_mul_right _ (by omega)

/-- Inside a window, and at the start of the first one, the magnitude before is one step back. -/
theorem units_window_pred {s k : Nat} (hs : s = 0 ∨ binade < k) (hk : k ≤ 2 * binade)
    (hpos : 0 < k) : units (s * binade + k - 1) + Nat.pow 2 s = k * Nat.pow 2 s := by
  obtain ⟨j, rfl⟩ : ∃ j, k = j + 1 := ⟨k - 1, by omega⟩
  rw [← Nat.add_assoc, Nat.add_sub_cancel, units_window (by omega) (by omega), Nat.succ_mul]

/-- **The nearest rank is nearest**: its interval holds the quotient. -/
theorem isNearest_nearestRank (num : Nat) {den : Nat} (hden : 0 < den) :
    IsNearest (nearestRank num den) num den := by
  obtain ⟨hqlow, hqhigh⟩ := log2_sub_bounds (num / den)
  obtain ⟨s, hs⟩ : ∃ s, s = (num / den).log2 - 52 := ⟨_, rfl⟩
  obtain ⟨unit, hunit⟩ : ∃ unit, unit = den * Nat.pow 2 s := ⟨_, rfl⟩
  obtain ⟨k, hk⟩ : ∃ k, k = roundDiv num unit := ⟨_, rfl⟩
  have hrank : nearestRank num den = s * binade + k := by rw [hk, hunit, hs]; rfl
  have hpos : 0 < unit := hunit ▸ Nat.mul_pos hden (two_pow_pos s)
  have hscaled : ∀ e, e * Nat.pow 2 s * den = e * unit := fun e => by
    rw [hunit, Nat.mul_assoc, Nat.mul_comm (Nat.pow 2 s)]
  rw [← hs] at hqlow hqhigh
  -- the whole part's bounds are those of the quotient itself
  have hlow : s = 0 ∨ binade * unit ≤ num := hqlow.imp_right fun h => by
    rw [← hscaled]
    exact Nat.le_trans (Nat.mul_le_mul_right den h) (Nat.div_mul_le_self num den)
  have hhigh : num < 2 * binade * unit := by
    rw [← hscaled]
    exact Nat.lt_of_lt_of_le (Nat.lt_mul_of_div_lt (Nat.lt_succ_self _) hden)
      (Nat.mul_le_mul_right den hqhigh)
  obtain ⟨hwindow, htop⟩ := roundDiv_window hpos hlow hhigh
  obtain ⟨hbelow, habove, hodd⟩ := roundDiv_bounds num hpos
  rw [← hk] at hwindow htop hbelow habove hodd
  have hunits : units (s * binade + k) = k * Nat.pow 2 s := units_window hwindow htop
  have hnext : k * unit + unit ≤ units (s * binade + k + 1) * den := by
    have := Nat.mul_le_mul_right den (le_units_window_succ hwindow htop)
    rwa [hscaled, Nat.succ_mul] at this
  -- the magnitude before is a full step back, unless the quotient is not below the rank
  have hprev : k = 0 ∨ units (s * binade + k - 1) * den + unit = k * unit ∨
      (units (s * binade + k - 1) * den ≤ k * unit ∧ k * unit ≤ num ∧ k % 2 = 0) := by
    rcases Nat.eq_zero_or_pos k with h0 | hkpos
    · exact .inl h0
    · by_cases hstart : s = 0 ∨ binade < k
      · refine .inr (.inl ?_)
        have := congrArg (· * den) (units_window_pred hstart htop hkpos)
        simpa only [Nat.add_mul, hscaled, hunit, Nat.mul_comm den] using this
      · obtain rfl : k = binade := by omega
        refine .inr (.inr ⟨?_, by omega, by decide⟩)
        rw [← hscaled, ← hunits]
        exact Nat.mul_le_mul_right den (units_le_units (Nat.sub_le _ _))
  have hparity : (s * binade + k) % 2 = k % 2 := by simp only [binade]; omega
  rw [hrank, IsNearest, hparity]
  simp only [Nat.add_mul, hunits, hscaled]
  have hzero : k = 0 → units (s * binade + k - 1) * den = 0 := by
    rintro rfl
    obtain rfl : s = 0 := by simp only [binade] at hwindow; omega
    simp
  refine ⟨?_, by omega, fun h1 => ⟨?_, by have := hodd h1; omega⟩⟩
  · rcases hprev with h0 | hstep | ⟨hle, hnum, -⟩
    · rw [hzero h0, h0]; omega
    · omega
    · omega
  · have := hodd h1
    rcases hprev with h0 | hstep | ⟨-, -, heven⟩
    · omega
    · omega
    · omega

end CalcJournal.Binary64
