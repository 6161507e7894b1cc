/-
CalcJournal.Calculation — the records of the journal.

A calculation is an expression with the label, the result and the instant under
which it was filed, and the id by which it is found again. A draft is the same
before the store has given it an id. Ids are sixty-four bit signed integers.
-/
import CalcJournal.Binary64.Basic
import CalcJournal.Calendar.Instant
import CalcJournal.Expression.Category
import CalcJournal.Text.Digits

namespace CalcJournal

/-! ## Ids -/

/-- The id of a calculation. -/
structure CalculationId where
  val : Int
  low : -9223372036854775808 ≤ val
  high : val ≤ 9223372036854775807
  deriving DecidableEq

namespace CalculationId

/-- The largest id. -/
def last : Int := 9223372036854775807

/-- The id with this number, if it is in range. -/
def ofInt? (n : Int) : Option CalculationId :=
  if h : -9223372036854775808 ≤ n ∧ n ≤ 9223372036854775807 then some ⟨n, h.1, h.2⟩ else none

/-- The id as text. -/
def text (id : CalculationId) : String := String.ofList (Text.decimalInt id.val)

/-- The id that a text writes, an optional sign and leading zeros included. -/
def ofText? (cs : List Char) : Option CalculationId := (Text.readInt? cs).bind ofInt?

/-- The number of an id is in range. -/
@[simp] theorem ofInt?_val (id : CalculationId) : ofInt? id.val = some id := by
  simp [ofInt?, id.low, id.high]

/-- Ids with the same number are the same. -/
theorem ext {a b : CalculationId} (h : a.val = b.val) : a = b := by
  cases a; cases b; simp_all

end CalculationId

/-! ## Records -/

/-- A calculation that the store has not given an id yet. -/
structure Draft where
  category : Category
  expression : String
  created : Instant
  result : Binary64
  deriving DecidableEq

/-- A calculation of the journal. -/
structure Calculation where
  id : CalculationId
  category : Category
  expression : String
  created : Instant
  result : Binary64
  deriving DecidableEq

/-- The draft under the id that it was given. -/
def Draft.withId (d : Draft) (id : CalculationId) : Calculation :=
  ⟨id, d.category, d.expression, d.created, d.result⟩

end CalcJournal
