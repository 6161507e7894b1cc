/-
CalcJournal.Expression.Operator — the four operators of an expression.

Each operator is written as one ASCII character and is applied to doubles as its
name says. No operator binds tighter than another.
-/
import CalcJournal.Binary64.Arithmetic

namespace CalcJournal

/-! ## Operators and their symbols -/

/-- A binary operator. -/
inductive Operator where
  | add
  | subtract
  | multiply
  | divide
  deriving DecidableEq, Repr

namespace Operator

/-- The character that writes the operator. -/
def symbol : Operator → Char
  | .add => '+'
  | .subtract => '-'
  | .multiply => '*'
  | .divide => '/'

/-- The operator that a character writes, if it writes one. -/
def ofChar? : Char → Option Operator
  | '+' => some .add
  | '-' => some .subtract
  | '*' => some .multiply
  | '/' => some .divide
  | _ => none

/-- Whether a character writes an operator. -/
def isSymbol (c : Char) : Bool := (ofChar? c).isSome

/-- A symbol is read back as its operator. -/
@[simp] theorem ofChar?_symbol (op : Operator) : ofChar? op.symbol = some op := by
  cases op <;> rfl

/-- Only its symbol reads as an operator. -/
theorem symbol_of_ofChar? {c : Char} {op : Operator} (h : ofChar? c = some op) :
    op.symbol = c := by
  unfold ofChar? at h
  split at h <;> simp_all [symbol] <;> subst h <;> rfl

/-! ## Application -/

/-- The operator applied to a left and a right number. -/
def apply : Operator → Binary64 → Binary64 → Binary64
  | .add => Binary64.add
  | .subtract => Binary64.subtract
  | .multiply => Binary64.multiply
  | .divide => Binary64.divide

end Operator

end CalcJournal
