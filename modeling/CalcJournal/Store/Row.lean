/-
CalcJournal.Store.Row — calculations as the store keeps them.

A row keeps the label of the category and the date as texts, the date in UTC with
exactly six fraction digits. The result column has no place for the not-a-number
value, which leaves it empty, and none for a sign of zero. A row that came from
elsewhere may hold any texts, so reading one back can fail: the category is looked
at first, then the date. The cells of a row have the types of their columns. A row
from elsewhere with a cell of another type, such as a text in the result column, is
left out: to read one is no error of the store but a panic.
-/
import CalcJournal.Calendar.Rfc3339
import CalcJournal.Store.StoreError
import CalcJournal.Text.Occurrence

namespace CalcJournal

/-! ## Rows -/

/-- A calculation as the store keeps it. -/
structure Row where
  id : CalculationId
  category : String
  expression : String
  created : String
  result : Option Binary64
  deriving DecidableEq

namespace Row

/-- A result as the result column keeps it. -/
def column : Binary64 → Option Binary64
  | .nan => none
  | x => if x = Binary64.zero true then some (Binary64.zero false) else some x

/-- The row of a calculation. -/
def ofCalculation (c : Calculation) : Row where
  id := c.id
  category := c.category.label
  expression := c.expression
  created := c.created.text .microseconds
  result := column c.result

/-! ## Reading back -/

/-- What is said about a date text that writes no instant; what is wrong with it is left out. -/
def dateMessage (text : String) : String :=
  "Failed to parse datetime '" ++ text ++ "': invalid datetime"

/-- The calculation that a row keeps. -/
def toCalculation (r : Row) : Except StoreError Calculation :=
  match Category.ofLabel? r.category with
  | none => .error (.unreadable (Category.unknownMessage r.category))
  | some category =>
    match Instant.ofText? r.created with
    | none => .error (.unreadable (dateMessage r.created))
    | some created => .ok ⟨r.id, category, r.expression, created, r.result.getD .nan⟩

/-! ## Looking through rows -/

/-- Whether a text occurs in a column of the row other than the result. -/
def mentions (text : String) (r : Row) : Bool :=
  let occurs (column : String) := Text.occursIn text.toList column.toList
  occurs r.category || occurs r.id.text || occurs r.expression || occurs r.created

/-- The order in which rows are listed: the latest date text first, and of equal ones the
largest id. -/
def listedBefore (a b : Row) : Bool :=
  decide (b.created < a.created) || (a.created == b.created && decide (b.id.val ≤ a.id.val))

end Row

end CalcJournal
