/-
CalcJournal.Text.Percent — bytes written with percent signs.

A percent sign with two hexadecimal digits stands for the byte they write, in
either case of letter. A percent sign without them stands for itself, and so does
every other byte, the plus included. `encode` writes every byte in this way.
-/

namespace CalcJournal.Percent

/-- The value of a hexadecimal digit. -/
def hexValue? (b : UInt8) : Option Nat :=
  let n := b.toNat
  if 0x30 ≤ n ∧ n ≤ 0x39 then some (n - 0x30)
  else if 0x41 ≤ n ∧ n ≤ 0x46 then some (n - 0x41 + 10)
  else if 0x61 ≤ n ∧ n ≤ 0x66 then some (n - 0x61 + 10)
  else none

/-- The bytes that a percent-written sequence stands for. -/
def decode : List UInt8 → List UInt8
  | [] => []
  | 0x25 :: a :: b :: rest =>
    match hexValue? a, hexValue? b with
    | some x, some y => UInt8.ofNat (x * 16 + y) :: decode rest
    | _, _ => 0x25 :: decode (a :: b :: rest)
  | c :: rest => c :: decode rest

/-- The upper-case hexadecimal digit of a value below sixteen. -/
def hexDigit (n : Nat) : UInt8 := UInt8.ofNat (if n < 10 then 0x30 + n else 0x41 + (n - 10))

/-- Every byte as a percent sign and two hexadecimal digits. -/
def encode (bytes : List UInt8) : List UInt8 :=
  bytes.flatMap fun b => [0x25, hexDigit (b.toNat / 16), hexDigit (b.toNat % 16)]

end CalcJournal.Percent
