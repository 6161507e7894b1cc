/-
CalcJournal.Expression.Token — numbers and operators as they stand in an expression.

A token's text has no exponent and no point behind a whole number, so that every
finite number's text is itself a literal. The infinities and the not-a-number
value have words that no literal spells. Tokens are rendered with single spaces
between them.
-/
import CalcJournal.Binary64.Shortest
import CalcJournal.Expression.Operator

namespace CalcJournal

/-- A number or an operator. -/
inductive Token where
  | number (x : Binary64)
  | operator (op : Operator)
  deriving DecidableEq, Repr

namespace Token

/-! ## Texts -/

/-- The text of a positive decimal: no exponent, and no point behind a whole number. -/
def decimalChars (d : Decimal) : List Char :=
  match d.fractionChars with
  | [] => d.wholeChars
  | fraction => d.wholeChars ++ '.' :: fraction

/-- The text of a magnitude; of two equally near shortest decimals the larger is written. -/
def magnitudeChars (rank : Nat) : List Char :=
  if rank = 0 then ['0'] else decimalChars (Binary64.shortest .up rank)

/-- The text of a number in an expression. -/
def numberChars : Binary64 → List Char
  | .nan => ['N', 'a', 'N']
  | .infinite false => ['i', 'n', 'f']
  | .infinite true => ['-', 'i', 'n', 'f']
  | .finite false rank => magnitudeChars rank
  | .finite true rank => '-' :: magnitudeChars rank

/-- The text of a token. -/
def chars : Token → List Char
  | .number x => numberChars x
  | .operator op => [op.symbol]

/-- The text of a token, as a string. -/
def text (t : Token) : String := String.ofList t.chars

/-! ## Rendering a sequence -/

/-- The texts of the tokens with single spaces between them. -/
def renderChars : List Token → List Char
  | [] => []
  | [t] => t.chars
  | t :: u :: ts => t.chars ++ ' ' :: renderChars (u :: ts)

/-- The tokens as an expression, with single spaces between them. -/
def render (ts : List Token) : String := String.ofList (renderChars ts)

end Token

end CalcJournal
