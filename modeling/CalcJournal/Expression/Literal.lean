/-
CalcJournal.Expression.Literal — the numbers that an expression may spell.

A literal is a run of digits and points, behind a minus that touches it or none.
The run has a value when it holds a digit and no second point; what it writes is
then a decimal fraction, read as the nearest double. An empty side of the point
counts as zero, so `5.` and `.5` are literals.
-/
import CalcJournal.Binary64.Rounding
import CalcJournal.Text.Digits

namespace CalcJournal

namespace Literal

/-! ## Characters and runs -/

/-- The characters that a literal's run is made of. -/
def isLiteralChar (c : Char) : Bool := c.isDigit || c == '.'

/-- A text starts a literal when it starts with a run, or with a minus and a run. -/
def starts : List Char → Bool
  | '-' :: c :: _ => isLiteralChar c
  | c :: _ => isLiteralChar c
  | [] => false

/-- The run of literal characters at the front of a text. -/
def run (cs : List Char) : List Char := cs.takeWhile isLiteralChar

/-- What follows the run. -/
def afterRun (cs : List Char) : List Char := cs.dropWhile isLiteralChar

/-! ## Values -/

/-- A run has a value when it holds a digit and at most one point. -/
def isWellFormed (run : List Char) : Bool := run.any Char.isDigit && run.count '.' ≤ 1

/-- The digits before the point. -/
def wholeDigits (run : List Char) : List Char := run.takeWhile (· != '.')

/-- The digits behind the point. -/
def fractionDigits (run : List Char) : List Char := (run.dropWhile (· != '.')).drop 1

/-- The double nearest to the decimal fraction that a well-formed run writes. -/
def value (negative : Bool) (run : List Char) : Binary64 :=
  Binary64.ofDecimal negative (Text.digitsValue (wholeDigits run ++ fractionDigits run))
    (fractionDigits run).length

/-- A run and what follows it make up the text. -/
theorem run_append_afterRun (cs : List Char) : run cs ++ afterRun cs = cs :=
  List.takeWhile_append_dropWhile

end Literal

end CalcJournal
