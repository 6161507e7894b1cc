/-
CalcJournal.Expression.ParseError — why a text is not an expression.

Positions are offsets in bytes of the text's UTF-8 form, counted from zero.
-/

namespace CalcJournal

/-- The ways in which a text fails to be an expression. -/
inductive ParseError where
  /-- Nothing but blanks. -/
  | empty
  /-- An operator where a number is due. -/
  | unexpectedOperator (operator : Char) (position : Nat)
  /-- The text ends behind the operator at this position. -/
  | missingOperand (position : Nat)
  /-- A number where an operator is due. -/
  | unexpectedNumber (position : Nat)
  /-- A literal without a digit or with a second point. -/
  | malformedNumber (literal : String) (position : Nat)
  /-- A character that no expression holds at this place. -/
  | invalidCharacter (character : Char) (position : Nat)
  deriving DecidableEq, Repr

/-- What is said about a text that is not an expression. -/
def ParseError.message : ParseError → String
  | .empty => "Expression is empty"
  | .unexpectedOperator c p =>
    "Unexpected operator '" ++ c.toString ++ "' at position " ++ toString p
  | .missingOperand p => "Missing operand after operator at position " ++ toString p
  | .unexpectedNumber p =>
    "Unexpected number at position " ++ toString p ++ ", expected an operator"
  | .malformedNumber literal p =>
    "Malformed number '" ++ literal ++ "' at position " ++ toString p
  | .invalidCharacter c p =>
    "Invalid character '" ++ c.toString ++ "' at position " ++ toString p

end CalcJournal
