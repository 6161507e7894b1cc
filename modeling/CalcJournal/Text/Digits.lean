/-
CalcJournal.Text.Digits — decimal digits and the whole numbers they write.

Digits are the ten ASCII characters from `0` to `9`. A natural number is written
with the fewest of them (`decimal`), and `digitsValue` reads any run back, leading
zeros included. `readNat?` and `readInt?` read a whole text or nothing; what signs
they admit is stated at each.
-/

namespace CalcJournal.Text

/-! ## Writing -/

/-- The decimal digits of a natural number, without leading zeros. -/
def decimal (n : Nat) : List Char := Nat.toDigits 10 n

/-- The decimal digits of an integer, behind a minus when it is negative. -/
def decimalInt (n : Int) : List Char :=
  if n < 0 then '-' :: decimal n.natAbs else decimal n.natAbs

/-- The decimal digits of `n`, with zeros in front up to `width` characters. -/
def padded (width n : Nat) : List Char :=
  let ds := decimal n
  List.replicate (width - ds.length) '0' ++ ds

/-! ## Reading -/

/-- The number that a run of digits writes; leading zeros do not matter. -/
def digitsValue (ds : List Char) : Nat := Nat.ofDigitChars 10 ds 0

/-- A natural number: one digit or more, and nothing else. -/
def readNat? (cs : List Char) : Option Nat :=
  if cs.isEmpty || !cs.all Char.isDigit then none else some (digitsValue cs)

/-- A natural number that may stand behind a plus. -/
def readUnsigned? : List Char → Option Nat
  | '+' :: ds => readNat? ds
  | cs => readNat? cs

/-- An integer: an optional plus or minus, then one digit or more. -/
def readInt? : List Char → Option Int
  | '-' :: ds => (readNat? ds).map fun n => -(n : Int)
  | '+' :: ds => (readNat? ds).map Int.ofNat
  | cs => (readNat? cs).map Int.ofNat

/-! ## Reading inverts writing -/

/-- Every character of a written number is a digit. -/
theorem isDigit_of_mem_decimal {n : Nat} {c : Char} (h : c ∈ decimal n) : c.isDigit = true :=
  Nat.isDigit_of_mem_toDigits (by decide) (by decide) h

/-- A written number is never empty. -/
theorem decimal_ne_nil (n : Nat) : decimal n ≠ [] := Nat.toDigits_ne_nil

/-- The digits of a number have its value. -/
@[simp] theorem digitsValue_decimal (n : Nat) : digitsValue (decimal n) = n :=
  Nat.ofDigitChars_ten_toDigits

/-- A written natural number is read back. -/
@[simp] theorem readNat?_decimal (n : Nat) : readNat? (decimal n) = some n := by
  have hall : (decimal n).all Char.isDigit = true :=
    List.all_eq_true.2 fun _ hc => isDigit_of_mem_decimal hc
  simp [readNat?, hall, decimal_ne_nil]

end CalcJournal.Text
