/-
CalcJournal.Binary64.Shortest — the fewest decimal digits that read back.

Magnitudes are compared on a grid fine enough for all of them: multiples of
10^-1074, on which every double, and every midpoint of two neighbours once it is
doubled, is a whole number. The decimals that round to a magnitude fill the
interval between its two midpoints, ends included exactly when its rank is even.

`shortest` walks the decimal grids from coarse to fine and stops at the first one
with a multiple in that interval. Only the two multiples next to the magnitude
can be nearest, so it tries those; of two hits it takes the nearer, and what it
does with two equally near ones is the caller's `Tie`. The finest grid holds the
magnitude itself, so the walk always ends with a hit.

Laid out in full, a decimal has a whole part and a fraction part: zeros fill the
places between its digits and the point on either side, the whole part is never
empty, and the fraction part of a whole number is.
-/
import CalcJournal.Binary64.Basic
import CalcJournal.Text.Digits

namespace CalcJournal

/-! ## Decimals -/

/-- The positive decimal `digits × 10 ^ exponent`. -/
structure Decimal where
  digits : Nat
  exponent : Int
  deriving DecidableEq, Repr

/-- What to do with two candidates equally near. -/
inductive Tie where
  | up
  | even
  deriving DecidableEq, Repr

namespace Binary64

/-! ## The interval of a magnitude -/

/-- A magnitude on the grid of multiples of 10^-1074. -/
def fine (rank : Nat) : Nat := units rank * Nat.pow 5 1074

/-- The doubled ends of the decimals that round to a magnitude, with the magnitude. -/
structure Interval where
  low : Nat
  value : Nat
  high : Nat
  closed : Bool
  deriving Repr

/-- The interval of the magnitude at a rank. -/
def interval (rank : Nat) : Interval where
  low := fine (rank - 1) + fine rank
  value := fine rank
  high := fine rank + fine (rank + 1)
  closed := rank % 2 = 0

/-- A multiple of 10^-1074 lies in the interval. -/
def Interval.contains (i : Interval) (m : Nat) : Bool :=
  if i.closed then i.low ≤ 2 * m && 2 * m ≤ i.high else i.low < 2 * m && 2 * m < i.high

/-! ## The walk from coarse to fine -/

/-- The multiple of `step` in the interval that is nearest to its value, as a factor. -/
def Interval.nearest? (tie : Tie) (i : Interval) (step : Nat) : Option Nat :=
  let below := i.value / step
  let above := below + 1
  match i.contains (below * step), i.contains (above * step) with
  | false, false => none
  | true, false => some below
  | false, true => some above
  | true, true =>
    let past := 2 * (i.value % step)
    if past < step then some below
    else if step < past then some above
    else match tie with
      | .up => some above
      | .even => some (if below % 2 = 0 then below else above)

/-- The first hit on the grids of steps `10 ^ n, …, 10, 1`, as a factor and a power. -/
def Interval.firstHit (tie : Tie) (i : Interval) : Nat → Nat × Nat
  | 0 => (i.value, 0)
  | n + 1 =>
    match i.nearest? tie (Nat.pow 10 (n + 1)) with
    | some factor => (factor, n + 1)
    | none => i.firstHit tie n

/-- The first decimal that the walk finds in the interval. -/
def Interval.shortest (tie : Tie) (i : Interval) : Decimal :=
  let (factor, power) := i.firstHit tie (Text.decimal i.value).length
  ⟨factor, power - 1074⟩

/-- The shortest decimal that rounds to the magnitude at a rank, which is not zero. -/
def shortest (tie : Tie) (rank : Nat) : Decimal := (interval rank).shortest tie

end Binary64

/-! ## The digits on either side of the point -/

namespace Decimal

/-- The digits, most significant first. -/
def digitChars (d : Decimal) : List Char := Text.decimal d.digits

/-- How many digits stand before the point; negative when zeros follow the point first. -/
def point (d : Decimal) : Int := d.digitChars.length + d.exponent

/-- The digits before the point; a lone zero when there are none. -/
def wholeChars (d : Decimal) : List Char :=
  if 0 ≤ d.exponent then d.digitChars ++ List.replicate d.exponent.toNat '0'
  else if d.point ≤ 0 then ['0']
  else d.digitChars.take d.point.toNat

/-- The digits behind the point. -/
def fractionChars (d : Decimal) : List Char :=
  if 0 ≤ d.exponent then []
  else if d.point ≤ 0 then List.replicate d.point.natAbs '0' ++ d.digitChars
  else d.digitChars.drop d.point.toNat

end Decimal

end CalcJournal
