/-
CalcJournal.Binary64.Basic — double-precision numbers.

A double is the single not-a-number value, an infinity, or a finite number. The
finite magnitudes are listed in order of size, from zero at rank 0 up to the
largest finite one, so a finite number is a sign and a rank. Ranks run through
the binades: 2^52 of them share a scale, and only the first two binades have
scale zero, which is gradual underflow. The infinity would be the next rank,
`topRank`, so a magnitude is infinite exactly when its rank has run over.

Every finite magnitude is a whole number of units of 2^-1074 (`units`), and all
arithmetic of this library is done on such whole numbers and rounded once.
-/

namespace CalcJournal

/-! ## Ranks and units -/

namespace Binary64

/-- Each binade holds this many magnitudes, which is 2^52. -/
def binade : Nat := 4503599627370496

/-- The rank that follows the largest finite magnitude. -/
def topRank : Nat := 2047 * 4503599627370496

/-- One is this many units. -/
def unitsPerOne : Nat := Nat.pow 2 1074

/-- The integer significand of the magnitude at a rank. -/
def significand (rank : Nat) : Nat :=
  if rank < binade then rank else binade + rank % binade

/-- The power of two that scales the significand at a rank. -/
def scale (rank : Nat) : Nat := rank / binade - 1

/-- The magnitude at a rank, as a number of units of 2^-1074. -/
def units (rank : Nat) : Nat := significand rank * Nat.pow 2 (scale rank)

/-- Rank zero is the magnitude zero. -/
@[simp] theorem units_zero : units 0 = 0 := by simp [units, significand, binade]

end Binary64

/-! ## The numbers -/

/-- A double-precision number, all not-a-number values being one. -/
inductive Binary64 where
  | nan
  | infinite (negative : Bool)
  | finite (negative : Bool) (rank : Fin Binary64.topRank)
  deriving DecidableEq, Repr

namespace Binary64

/-- The zero of either sign. -/
def zero (negative : Bool) : Binary64 := .finite negative ⟨0, by decide⟩

/-- The number of a sign and a rank; a rank that has run over is an infinity. -/
def ofRank (negative : Bool) (rank : Nat) : Binary64 :=
  if h : rank < topRank then .finite negative ⟨rank, h⟩ else .infinite negative

/-- The same number with the other sign. -/
def negate : Binary64 → Binary64
  | .nan => .nan
  | .infinite s => .infinite !s
  | .finite s r => .finite (!s) r

/-- A number that is neither infinite nor not-a-number. -/
def isFinite : Binary64 → Bool
  | .finite _ _ => true
  | _ => false

/-- The sign bit; the not-a-number value has it clear. -/
def isNegative : Binary64 → Bool
  | .nan => false
  | .infinite s => s
  | .finite s _ => s

/-! ## Interchange bits -/

/-- The weight of the sign bit, which is 2^63. -/
def signWeight : Nat := 9223372036854775808

/-- The sixty-four interchange bits, of which the not-a-number value has no fixed ones. -/
def bits? : Binary64 → Option Nat
  | .nan => none
  | .infinite s => some (s.toNat * signWeight + topRank)
  | .finite s r => some (s.toNat * signWeight + r)

/-- The number that sixty-four interchange bits stand for. -/
def ofBits (bits : Nat) : Binary64 :=
  let rank := bits % signWeight
  if topRank < rank then .nan else ofRank (bits / signWeight % 2 = 1) rank

end Binary64

end CalcJournal
