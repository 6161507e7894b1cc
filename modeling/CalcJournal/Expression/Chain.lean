/-
CalcJournal.Expression.Chain — what an expression means.

An expression is a first number and a list of steps, each an operator with the
number to its right. Its value is the left fold of the steps: no operator binds
tighter than another, and nothing is regrouped.
-/
import CalcJournal.Expression.Token

namespace CalcJournal

/-- An operator with the number to its right. -/
structure Step where
  operator : Operator
  operand : Binary64
  deriving DecidableEq, Repr

/-- A first number and the steps that follow it. -/
structure Chain where
  first : Binary64
  steps : List Step
  deriving DecidableEq, Repr

namespace Chain

/-- The steps applied from left to right, starting from the first number. -/
def reduce (c : Chain) : Binary64 :=
  c.steps.foldl (fun total s => s.operator.apply total s.operand) c.first

/-- The chain as tokens in the order in which they are written. -/
def tokens (c : Chain) : List Token :=
  .number c.first :: c.steps.flatMap fun s => [.operator s.operator, .number s.operand]

end Chain

end CalcJournal
