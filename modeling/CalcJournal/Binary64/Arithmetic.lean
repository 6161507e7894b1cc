/-
CalcJournal.Binary64.Arithmetic — the four operations on doubles.

Each operation on finite numbers takes the exact result on units of 2^-1074 and
rounds it once. What the exact result leaves open is fixed here: the sign of a
zero sum, the infinities, and the operations that have no answer, which give the
not-a-number value.
-/
import CalcJournal.Binary64.Rounding

namespace CalcJournal.Binary64

/-! ## Sums and differences -/

/-- The value of a sign and a rank, as a signed number of units. -/
def signedUnits (negative : Bool) (rank : Nat) : Int :=
  if negative then -(units rank : Int) else units rank

/-- A signed number of units, rounded; a zero takes the given sign. -/
def ofSignedUnits (zeroNegative : Bool) (z : Int) : Binary64 :=
  if z = 0 then zero zeroNegative else round (z < 0) z.natAbs 1

/-- The sum; a zero sum is negative only when both terms are. -/
def add : Binary64 → Binary64 → Binary64
  | .nan, _ => .nan
  | _, .nan => .nan
  | .infinite s, .infinite t => if s = t then .infinite s else .nan
  | .infinite s, .finite _ _ => .infinite s
  | .finite _ _, .infinite t => .infinite t
  | .finite s a, .finite t b => ofSignedUnits (s && t) (signedUnits s a + signedUnits t b)

/-- The difference is the sum with the second term's sign turned. -/
def subtract (x y : Binary64) : Binary64 := add x (negate y)

/-! ## Products and quotients -/

/-- The product; zero times an infinity has no answer. -/
def multiply : Binary64 → Binary64 → Binary64
  | .nan, _ => .nan
  | _, .nan => .nan
  | .infinite s, .infinite t => .infinite (s ^^ t)
  | .infinite s, .finite t b => if b.val = 0 then .nan else .infinite (s ^^ t)
  | .finite s a, .infinite t => if a.val = 0 then .nan else .infinite (s ^^ t)
  | .finite s a, .finite t b => round (s ^^ t) (units a * units b) unitsPerOne

/-- The quotient; zero by zero and infinity by infinity have no answer. -/
def divide : Binary64 → Binary64 → Binary64
  | .nan, _ => .nan
  | _, .nan => .nan
  | .infinite _, .infinite _ => .nan
  | .infinite s, .finite t _ => .infinite (s ^^ t)
  | .finite s _, .infinite t => zero (s ^^ t)
  | .finite s a, .finite t b =>
    if b.val = 0 then
      if a.val = 0 then .nan else .infinite (s ^^ t)
    else round (s ^^ t) (units a * unitsPerOne) (units b)

end CalcJournal.Binary64
