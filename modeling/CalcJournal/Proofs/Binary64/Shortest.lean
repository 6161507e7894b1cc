/-
CalcJournal.Proofs.Binary64.Shortest — a shortest decimal reads back.

Whatever grid the walk stops at, the multiple that it takes lies in the interval of the
magnitude: it was tested, or it is the magnitude itself (`contains_firstHit`). The
interval of the walk, which counts multiples of 10^-1074, is the interval of the
rounding, which counts units of 2^-1074, under another name. So the decimal is rounded
back to its rank however it is laid out (`ofDecimal_shortest`), and what the walk does
with two equally near multiples does not matter.
-/
import CalcJournal.Binary64.Shortest
import CalcJournal.Proofs.Binary64.Rounding
import CalcJournal.Proofs.Text.Digits

namespace CalcJournal

/-! ## 1. The walk ends in the interval -/

namespace Binary64

variable {tie : Tie} {i : Interval}

/-- The multiple that a grid offers lies in the interval. -/
theorem contains_of_nearest? {step factor : Nat} (h : i.nearest? tie step = some factor) :
    i.contains (factor * step) = true := by
  unfold Interval.nearest? at h
  dsimp only at h
  split at h
  case h_1 => simp at h
  case h_2 hbelow habove => rw [← Option.some.inj h]; exact hbelow
  case h_3 hbelow habove => rw [← Option.some.inj h]; exact habove
  case h_4 hbelow habove =>
    -- both neighbours are in the interval, so any choice between them is
    have hboth : factor = i.value / step ∨ factor = i.value / step + 1 := by
      split at h
      · exact .inl (Option.some.inj h).symm
      · split at h
        · exact .inr (Option.some.inj h).symm
        · cases tie with
          | up => exact .inr (Option.some.inj h).symm
          | even =>
            have := (Option.some.inj h).symm
            split at this
            · exact .inl this
            · exact .inr this
    rcases hboth with rfl | rfl
    · exact hbelow
    · exact habove

/-- The walk stops at a multiple in the interval, from whichever grid it sets out. -/
theorem contains_firstHit (hvalue : i.contains i.value = true) : ∀ n : Nat,
    i.contains ((i.firstHit tie n).1 * Nat.pow 10 (i.firstHit tie n).2) = true
  | 0 => by
      have h : (i.firstHit tie 0).1 * Nat.pow 10 (i.firstHit tie 0).2 = i.value :=
        Nat.mul_one _
      rw [h, hvalue]
  | n + 1 => by
      unfold Interval.firstHit
      split
      · rename_i factor hhit
        exact contains_of_nearest? hhit
      · exact contains_firstHit hvalue n

/-- An interval holds what lies between its ends, and its ends when it is closed. -/
theorem contains_iff {m : Nat} : i.contains m = true ↔
    i.low ≤ 2 * m ∧ 2 * m ≤ i.high ∧ (i.closed = false → i.low ≠ 2 * m ∧ 2 * m ≠ i.high) := by
  unfold Interval.contains
  cases hclosed : i.closed with
  | true => simp
  | false =>
    simp only [Bool.false_eq_true, if_false, Bool.and_eq_true, decide_eq_true_eq,
      forall_const]
    omega

/-! ## 2. One interval under two names -/

/-- A unit is this many multiples of 10^-1074. -/
def finePerUnit : Nat := Nat.pow 5 1074

/-- A magnitude in multiples of 10^-1074 is its units times those of one unit. -/
theorem fine_eq (rank : Nat) : fine rank = units rank * finePerUnit := by
  unfold fine finePerUnit; rfl

theorem finePerUnit_pos : 0 < finePerUnit := by decide +kernel

/-- One is as many multiples of 10^-1074 as its units have together. -/
theorem unitsPerOne_mul_finePerUnit : unitsPerOne * finePerUnit = Nat.pow 10 1074 := by
  decide +kernel

/-- The interval of the walk is the interval of the rounding. -/
theorem isNearest_of_contains {rank m : Nat} (h : (interval rank).contains m = true) :
    IsNearest rank m finePerUnit := by
  obtain ⟨hlow, hhigh, hopen⟩ := contains_iff.1 h
  simp only [interval, fine_eq] at hlow hhigh hopen
  rw [IsNearest, Nat.add_mul, Nat.add_mul]
  refine ⟨hlow, hhigh, fun hodd => hopen ?_⟩
  have hnot : ¬ rank % 2 = 0 := by omega
  exact decide_eq_false hnot

/-- A magnitude other than zero lies in its own interval. -/
theorem contains_value {rank : Nat} (h : 0 < rank) :
    (interval rank).contains (interval rank).value = true := by
  have hbelow : fine (rank - 1) < fine rank := by
    rw [fine_eq, fine_eq]
    exact (Nat.mul_lt_mul_right finePerUnit_pos).2 (units_lt_units (by omega))
  have habove : fine rank < fine (rank + 1) := by
    rw [fine_eq, fine_eq]
    exact (Nat.mul_lt_mul_right finePerUnit_pos).2 (units_lt_succ rank)
  have hlow : (interval rank).low < 2 * (interval rank).value := by
    simp only [interval]; omega
  have hhigh : 2 * (interval rank).value < (interval rank).high := by
    simp only [interval]; omega
  exact contains_iff.2 ⟨by omega, by omega, fun _ => by omega⟩

/-- What the walk finds is a multiple of 10^-1074 in the interval. -/
theorem shortest_contains (hvalue : i.contains i.value = true) :
    ∃ factor power : Nat, i.shortest tie = ⟨factor, power - 1074⟩ ∧
      i.contains (factor * Nat.pow 10 power) = true := by
  have hhit := @contains_firstHit tie i hvalue (Text.decimal i.value).length
  rcases hpair : i.firstHit tie (Text.decimal i.value).length with ⟨factor, power⟩
  rw [hpair] at hhit
  exact ⟨factor, power, by rw [Interval.shortest, hpair], hhit⟩

/-- A shortest decimal is a multiple of 10^-1074 that is rounded to the rank. -/
theorem shortest_isNearest (tie : Tie) {rank : Nat} (h : 0 < rank) :
    ∃ factor power : Nat, shortest tie rank = ⟨factor, power - 1074⟩ ∧
      IsNearest rank (factor * Nat.pow 10 power) finePerUnit := by
  obtain ⟨factor, power, hshortest, hhit⟩ := shortest_contains (contains_value h)
  exact ⟨factor, power, hshortest, isNearest_of_contains hhit⟩

end Binary64

/-! ## 3. The layout keeps the digits -/

namespace Decimal

/-- A digit run has as many places behind its point as its exponent says. -/
theorem length_fractionChars (d : Decimal) :
    d.fractionChars.length = (-d.exponent).toNat := by
  unfold fractionChars
  split
  · simp only [List.length_nil]; omega
  · split
    · simp only [List.length_append, List.length_replicate, point] at *; omega
    · simp only [List.length_drop, point] at *; omega

/-- Both parts together have the value of the digits and of the zeros that fill the whole
part. -/
theorem digitsValue_layout (d : Decimal) :
    Text.digitsValue (d.wholeChars ++ d.fractionChars)
      = d.digits * Nat.pow 10 d.exponent.toNat := by
  unfold wholeChars fractionChars
  split
  case isTrue hwhole =>
    rw [List.append_nil, Text.digitsValue_append_zeros, digitChars, Text.digitsValue_decimal]
  case isFalse hfraction =>
    have hzero : d.exponent.toNat = 0 := by omega
    rw [hzero, show d.digits * Nat.pow 10 0 = d.digits from Nat.mul_one _]
    split
    case isTrue =>
      rw [List.singleton_append, Text.digitsValue_zero_cons, Text.digitsValue_zeros_append,
        digitChars, Text.digitsValue_decimal]
    case isFalse => rw [List.take_append_drop, digitChars, Text.digitsValue_decimal]

theorem isDigit_of_mem_digitChars {d : Decimal} {c : Char} (h : c ∈ d.digitChars) :
    c.isDigit = true := Text.isDigit_of_mem_decimal h

theorem isDigit_of_mem_wholeChars {d : Decimal} {c : Char} (h : c ∈ d.wholeChars) :
    c.isDigit = true := by
  unfold wholeChars at h
  split at h
  · rcases List.mem_append.1 h with h | h
    · exact isDigit_of_mem_digitChars h
    · rw [(List.mem_replicate.1 h).2]; rfl
  · split at h
    · rw [List.mem_singleton.1 h]; rfl
    · exact isDigit_of_mem_digitChars (List.mem_of_mem_take h)

theorem isDigit_of_mem_fractionChars {d : Decimal} {c : Char} (h : c ∈ d.fractionChars) :
    c.isDigit = true := by
  unfold fractionChars at h
  split at h
  · simp at h
  · split at h
    · rcases List.mem_append.1 h with h | h
      · rw [(List.mem_replicate.1 h).2]; rfl
      · exact isDigit_of_mem_digitChars h
    · exact isDigit_of_mem_digitChars (List.mem_of_mem_drop h)

theorem wholeChars_ne_nil (d : Decimal) : d.wholeChars ≠ [] := by
  unfold wholeChars
  split
  · exact List.append_ne_nil_of_left_ne_nil (Text.decimal_ne_nil d.digits) _
  · split
    · simp
    · rename_i hpoint
      have hne : d.digitChars ≠ [] := Text.decimal_ne_nil d.digits
      simp only [ne_eq, List.take_eq_nil_iff, not_or]
      exact ⟨by omega, hne⟩

end Decimal

/-! ## 4. Reading back -/

namespace Binary64

theorem ten_pow_pos (n : Nat) : 0 < Nat.pow 10 n := Nat.pow_pos (by decide)

/-- A decimal in the interval of a rank is read as the number at that rank. -/
theorem ofDecimal_eq_ofRank {rank digits places : Nat} (negative : Bool)
    (h : IsNearest rank (digits * unitsPerOne) (Nat.pow 10 places)) :
    ofDecimal negative digits places = ofRank negative rank := by
  have hsame := isNearest_unique (ten_pow_pos places)
    (isNearest_nearestRank _ (ten_pow_pos places)) h
  rw [ofDecimal, round, hsame]

theorem ten_pow_mul_eq {a b c d : Nat} (h : a + b = c + d) :
    Nat.pow 10 a * Nat.pow 10 b = Nat.pow 10 c * Nat.pow 10 d := by
  calc Nat.pow 10 a * Nat.pow 10 b = Nat.pow 10 (a + b) := (Nat.pow_add 10 a b).symm
    _ = Nat.pow 10 (c + d) := by rw [h]
    _ = Nat.pow 10 c * Nat.pow 10 d := Nat.pow_add 10 c d

/-- The places of a decimal, before and behind its point, against those of the grid. -/
theorem ten_pow_places (power : Nat) :
    Nat.pow 10 power * Nat.pow 10 (-((power : Int) - 1074)).toNat
      = Nat.pow 10 ((power : Int) - 1074).toNat * (unitsPerOne * finePerUnit) :=
  (ten_pow_mul_eq (by omega)).trans
    (congrArg (Nat.pow 10 ((power : Int) - 1074).toNat * ·) unitsPerOne_mul_finePerUnit.symm)

/-- A shortest decimal lies in the interval of its rank, its power of ten on either side of the
fraction. -/
theorem isNearest_shortest (tie : Tie) {rank : Nat} (h : 0 < rank) :
    IsNearest rank
      ((shortest tie rank).digits * Nat.pow 10 (shortest tie rank).exponent.toNat * unitsPerOne)
      (Nat.pow 10 (-(shortest tie rank).exponent).toNat) := by
  obtain ⟨factor, power, hshortest, hnearest⟩ := shortest_isNearest tie h
  rw [hshortest]
  dsimp only
  have hsame : factor * Nat.pow 10 power * Nat.pow 10 (-((power : Int) - 1074)).toNat
      = factor * Nat.pow 10 ((power : Int) - 1074).toNat * unitsPerOne * finePerUnit := by
    rw [Nat.mul_assoc, ten_pow_places, ← Nat.mul_assoc, ← Nat.mul_assoc]
  exact hnearest.of_same_quotient finePerUnit_pos (ten_pow_pos _) hsame

/-- **A shortest decimal reads back**: the digits before and behind its point are read as
the number that they were written for. -/
theorem ofDecimal_shortest (tie : Tie) (negative : Bool) (rank : Fin topRank)
    (h : 0 < rank.val) :
    ofDecimal negative
      (Text.digitsValue ((shortest tie rank).wholeChars ++ (shortest tie rank).fractionChars))
      (shortest tie rank).fractionChars.length = .finite negative rank := by
  have hnearest := isNearest_shortest tie h
  rw [← Decimal.digitsValue_layout, ← Decimal.length_fractionChars] at hnearest
  rw [ofDecimal_eq_ofRank negative hnearest, ofRank, dif_pos rank.isLt]

end Binary64

end CalcJournal
