/-
CalcJournal.Binary64.Rounding — from an exact magnitude to the nearest double.

An exact magnitude is a quotient of natural numbers, counted in units of 2^-1074.
It is rounded to the nearest rank, and of two equally near ones to the even rank.
The scale comes from the whole part of the quotient alone: below 2^53 units every
unit is a rank of its own, above it each doubling widens the gap once. A quotient
that rounds up out of its binade lands on the first rank of the next one, and one
that rounds up out of the last binade lands on `topRank`, the infinity.
-/
import CalcJournal.Binary64.Basic

namespace CalcJournal

/-! ## Rounding a quotient to a whole number -/

/-- The whole number nearest to `num / den`; of two equally near ones the even one. -/
def roundDiv (num den : Nat) : Nat :=
  let q := num / den
  let r := num % den
  if 2 * r < den then q else if den < 2 * r then q + 1 else q + q % 2

namespace Binary64

/-! ## Rounding a magnitude to a rank -/

/-- The rank nearest to `num / den` units, ties to the even rank. -/
def nearestRank (num den : Nat) : Nat :=
  let s := (num / den).log2 - 52
  s * binade + roundDiv num (den * Nat.pow 2 s)

/-- The number of the given sign nearest to `num / den` units. -/
def round (negative : Bool) (num den : Nat) : Binary64 :=
  ofRank negative (nearestRank num den)

/-- The number nearest to `digits / 10 ^ places`, as a decimal literal writes it. -/
def ofDecimal (negative : Bool) (digits places : Nat) : Binary64 :=
  round negative (digits * unitsPerOne) (Nat.pow 10 places)

/-- The number nearest to `digits × 10 ^ exponent`. Exponents that no digits can bring into
the range of doubles are answered without raising ten to them. -/
def ofScientific (negative : Bool) (digits : Nat) (exponent : Int) : Binary64 :=
  if digits = 0 then zero negative
  else if 400 < exponent then .infinite negative
  else if exponent < -(400 + digits.log2 : Int) then zero negative
  else if 0 ≤ exponent then ofDecimal negative (digits * Nat.pow 10 exponent.toNat) 0
  else ofDecimal negative digits (-exponent).toNat

end Binary64

end CalcJournal
