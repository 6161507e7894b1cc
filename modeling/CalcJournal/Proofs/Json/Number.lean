/-
CalcJournal.Proofs.Json.Number — the numbers that are written are spelled well and read back.

`Number.IsSpelled` is JSON's grammar of a number: no zero in front of other digits, and no
point and no exponent without a digit. Integers and finite doubles are spelled by it, and
what is spelled for them means them: an id is its own numeral, and a double is the double
nearest to what was spelled, its sign included. The three layouts of a double spread one
decimal over digits and exponent in different ways, so each reduces to
`Binary64.ofScientific_of_shortest`.
-/
import CalcJournal.Json.Number
import CalcJournal.Proofs.Binary64.Scientific

namespace CalcJournal

/-! ## 1. The grammar -/

namespace Json

open Text

/-- A number is spelled as JSON wants it. -/
structure Number.IsSpelled (n : Number) : Prop where
  whole : IsRun n.whole
  leading : n.whole = ['0'] ∨ n.whole.head? ≠ some '0'
  fraction : ∀ c ∈ n.fraction, c.isDigit = true
  exponent : ∀ e ∈ n.exponent, IsRun e.2

theorem decimal_leading (n : Nat) : decimal n = ['0'] ∨ (decimal n).head? ≠ some '0' := by
  rcases Nat.eq_zero_or_pos n with rfl | hpos
  · exact .inl rfl
  · exact .inr (head?_decimal_ne hpos)

end Json

/-! ## 2. The layouts of a decimal -/

namespace Decimal

variable {d : Decimal}

/-- The whole part of a decimal starts with a zero only if it is one. -/
theorem wholeChars_leading (h : 0 < d.digits) :
    d.wholeChars = ['0'] ∨ d.wholeChars.head? ≠ some '0' := by
  have hhead : d.digitChars.head? ≠ some '0' := Text.head?_decimal_ne h
  have hne : d.digitChars ≠ [] := Text.decimal_ne_nil d.digits
  unfold wholeChars
  split
  · right
    rwa [Text.head?_append_of_ne hne]
  · split
    · exact .inl rfl
    · right
      rename_i hpoint
      rwa [List.head?_take, if_neg (by omega)]

theorem length_digitChars_pos (d : Decimal) : 0 < d.digitChars.length :=
  List.length_pos_iff.2 (Text.decimal_ne_nil d.digits)

end Decimal

namespace Json.Number

open Text

variable {d : Decimal} {negative : Bool}

theorem isSpelled_ofInt (i : Int) : (ofInt i).IsSpelled where
  whole := isRun_decimal _
  leading := decimal_leading _
  fraction := by simp [ofInt]
  exponent := by simp [ofInt]

theorem isSpelled_ofDecimal (h : 0 < d.digits) : (ofDecimal negative d).IsSpelled := by
  unfold ofDecimal
  split
  · refine ⟨⟨d.wholeChars_ne_nil, fun c => Decimal.isDigit_of_mem_wholeChars⟩,
      Decimal.wholeChars_leading h, ?_, by simp⟩
    dsimp only
    split
    · simp
    · exact fun c => Decimal.isDigit_of_mem_fractionChars
  · have hlen := d.length_digitChars_pos
    refine ⟨⟨?_, ?_⟩, .inr ?_, ?_, ?_⟩
    · intro hnil
      have := congrArg List.length hnil
      simp only [List.length_take, List.length_nil] at this
      omega
    · exact fun c hc => Decimal.isDigit_of_mem_digitChars (List.mem_of_mem_take hc)
    · rw [List.head?_take, if_neg (by decide)]
      exact head?_decimal_ne h
    · exact fun c hc => Decimal.isDigit_of_mem_digitChars (List.mem_of_mem_drop hc)
    · intro e he
      obtain rfl := Option.mem_some_iff.1 he
      exact isRun_decimal _

/-- The decimal of a rank other than zero has digits. -/
theorem digits_shortest_pos (tie : Tie) {rank : Fin Binary64.topRank} (h : 0 < rank.val) :
    0 < (Binary64.shortest tie rank).digits :=
  Binary64.digits_pos h (Binary64.isNearest_shortest tie h)

/-- A finite double is spelled as JSON wants it. -/
theorem isSpelled_ofFinite (negative : Bool) (rank : Fin Binary64.topRank) :
    (ofFinite negative rank).IsSpelled := by
  unfold ofFinite
  split
  · exact ⟨⟨by simp, by simp⟩, .inl rfl, by simp, by simp⟩
  · rename_i hrank
    exact isSpelled_ofDecimal (digits_shortest_pos .even (Nat.pos_of_ne_zero hrank))

/-! ## 3. What is spelled means what was written -/

/-- The digits of an id are read as that integer. -/
theorem numeral?_ofInt {i : Int} (hlow : -9223372036854775808 ≤ i)
    (hhigh : i ≤ 9223372036854775807) : (ofInt i).numeral? = some (.integer i) := by
  have hinteger : (ofInt i).integer? = some i := by
    simp only [integer?, ofInt, List.isEmpty_nil, Bool.not_true, Option.isSome_none,
      Bool.or_self, Bool.false_eq_true, if_false, digitsValue_decimal, decide_eq_true_eq]
    split
    case isTrue hneg =>
      rw [if_pos (by omega)]
      congr 1
      omega
    case isFalse hpos =>
      rw [if_pos (by omega)]
      congr 1
      omega
  rw [numeral?, hinteger]

theorem nearest_ofDecimal {rank : Fin Binary64.topRank} (hpos : 0 < rank.val)
    (hd : d = Binary64.shortest .even rank) :
    (ofDecimal negative d).nearest = .finite negative rank := by
  have hlayout := d.digitsValue_layout
  have hplaces := d.length_fractionChars
  have hlen := d.length_digitChars_pos
  unfold ofDecimal
  split
  case isTrue =>
    rw [nearest]
    dsimp only
    split
    case isTrue hwhole =>
      -- a whole number is spelled with one zero behind the point
      have hnil := List.isEmpty_iff.1 hwhole
      rw [hnil, List.length_nil] at hplaces
      rw [hnil, List.append_nil] at hlayout
      have hvalue : digitsValue (d.wholeChars ++ ['0'])
          = d.digits * Nat.pow 10 d.exponent.toNat * Nat.pow 10 1 := by
        rw [← hlayout]
        exact digitsValue_append_zeros d.wholeChars 1
      rw [hvalue]
      have hexponent : exponentValue ⟨negative, d.wholeChars, ['0'], none⟩
          - ((['0'].length : Nat) : Int) = -1 := rfl
      rw [hexponent]
      refine Binary64.ofScientific_of_shortest .even negative rank hpos ?_
      have hone : Nat.pow 10 0 = 1 := rfl
      rw [← hd, ← hplaces, show (-1 : Int).toNat = 0 from rfl,
        show (- -1 : Int).toNat = 1 from rfl, hone, Nat.mul_one, Nat.mul_one]
    case isFalse hfraction =>
      rw [hlayout, hplaces]
      refine Binary64.ofScientific_of_shortest .even negative rank hpos ?_
      rw [← hd]
      have hne : d.fractionChars ≠ [] := by simpa using hfraction
      have := List.length_pos_iff.2 hne
      have hzero : d.exponent.toNat = 0 := by omega
      have hexponent : (exponentValue ⟨negative, d.wholeChars, d.fractionChars, none⟩
          - ((-d.exponent).toNat : Int)) = d.exponent := by
        simp only [exponentValue]
        omega
      rw [hexponent, hzero]
      exact congrArg (· * _) (Nat.mul_one _)
  case isFalse =>
    rw [nearest]
    dsimp only
    rw [List.take_append_drop, Decimal.digitChars, digitsValue_decimal]
    refine Binary64.ofScientific_of_shortest .even negative rank hpos ?_
    rw [← hd]
    have hexponent : (exponentValue ⟨negative, d.digitChars.take 1, d.digitChars.drop 1,
        some (decide (d.point - 1 < 0), decimal (d.point - 1).natAbs)⟩
          - ((d.digitChars.drop 1).length : Int)) = d.exponent := by
      have hpower : exponentValue ⟨negative, d.digitChars.take 1, d.digitChars.drop 1,
          some (decide (d.point - 1 < 0), decimal (d.point - 1).natAbs)⟩ = d.point - 1 := by
        by_cases hneg : d.point - 1 < 0
        · simp only [exponentValue, hneg, decide_true, digitsValue_decimal]
          omega
        · simp only [exponentValue, hneg, decide_false, digitsValue_decimal]
          omega
      rw [hpower, List.length_drop, Decimal.point]
      omega
    rw [← Decimal.digitChars, hexponent]

/-- **The number that is spelled for a finite double is nearest to that double**, which may
be a zero of either sign. -/
theorem nearest_ofFinite (negative : Bool) (rank : Fin Binary64.topRank) :
    (ofFinite negative rank).nearest = .finite negative rank := by
  unfold ofFinite
  split
  case isTrue hzero =>
    have hrank : rank = ⟨0, by decide⟩ := Fin.ext hzero
    rw [hrank]
    rfl
  case isFalse hrank => exact nearest_ofDecimal (Nat.pos_of_ne_zero hrank) rfl

end Json.Number

end CalcJournal
