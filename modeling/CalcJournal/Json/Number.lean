/-
CalcJournal.Json.Number — the numbers of a JSON text.

A number is kept as it is spelled: sign, whole digits, fraction digits and
exponent. A number without fraction and exponent counts as an integer when it
fits sixty-four bits, unsigned or signed; minus zero does not. Every other number
is the nearest double, and one whose nearest double is an infinity is no number.

A double is spelled with the fewest digits that read back, of two equally near
ones those that end evenly, and always with a fraction or an exponent: from
0.00001 up to below 10^16 positionally, otherwise with one digit before the point.
-/
import CalcJournal.Binary64.Shortest
import CalcJournal.Binary64.Rounding

namespace CalcJournal.Json

/-! ## Spellings -/

/-- A number as it is spelled; the exponent has a sign and digits. -/
structure Number where
  negative : Bool
  whole : List Char
  fraction : List Char
  exponent : Option (Bool × List Char)
  deriving DecidableEq, Repr

/-- What a number means: an integer of sixty-four bits, or a finite double. -/
inductive Numeral where
  | integer (n : Int)
  | floating (negative : Bool) (rank : Fin Binary64.topRank)
  deriving DecidableEq, Repr

namespace Number

/-- The characters of a number. -/
def chars (n : Number) : List Char :=
  (if n.negative then ['-'] else []) ++ n.whole
    ++ (if n.fraction.isEmpty then [] else '.' :: n.fraction)
    ++ (match n.exponent with
        | none => []
        | some (negative, ds) => 'e' :: (if negative then '-' else '+') :: ds)

/-! ## Meanings -/

/-- The value of the exponent; zero when there is none. -/
def exponentValue (n : Number) : Int :=
  match n.exponent with
  | none => 0
  | some (true, ds) => -(Text.digitsValue ds : Int)
  | some (false, ds) => Text.digitsValue ds

/-- The double nearest to the number. -/
def nearest (n : Number) : Binary64 :=
  Binary64.ofScientific n.negative (Text.digitsValue (n.whole ++ n.fraction))
    (n.exponentValue - n.fraction.length)

/-- The number as an integer of sixty-four bits, if it is spelled and fits as one. -/
def integer? (n : Number) : Option Int :=
  if !n.fraction.isEmpty || n.exponent.isSome then none
  else
    let m := Text.digitsValue n.whole
    if n.negative then (if 0 < m ∧ m ≤ 9223372036854775808 then some (-(m : Int)) else none)
    else if m < 18446744073709551616 then some m else none

/-- What the number means, unless it is too large for a double. -/
def numeral? (n : Number) : Option Numeral :=
  match n.integer? with
  | some i => some (.integer i)
  | none =>
    match n.nearest with
    | .finite negative rank => some (.floating negative rank)
    | _ => none

/-! ## Spelling integers and doubles -/

/-- An integer as a number. -/
def ofInt (i : Int) : Number := ⟨i < 0, Text.decimal i.natAbs, [], none⟩

/-- The positions of the point for which a double is spelled without exponent. -/
def isPositional (point : Int) : Bool := -5 < point && point ≤ 16

/-- A positive decimal as the number of the given sign. -/
def ofDecimal (negative : Bool) (d : Decimal) : Number :=
  if isPositional d.point then
    ⟨negative, d.wholeChars, if d.fractionChars.isEmpty then ['0'] else d.fractionChars, none⟩
  else
    let power := d.point - 1
    ⟨negative, d.digitChars.take 1, d.digitChars.drop 1,
      some (power < 0, Text.decimal power.natAbs)⟩

/-- The finite double of a sign and a rank as a number. -/
def ofFinite (negative : Bool) (rank : Nat) : Number :=
  if rank = 0 then ⟨negative, ['0'], ['0'], none⟩
  else ofDecimal negative (Binary64.shortest .even rank)

end Number

end CalcJournal.Json
