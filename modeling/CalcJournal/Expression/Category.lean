/-
CalcJournal.Expression.Category — the label under which an expression is filed.

The label counts operator characters and does not look at the grammar, so it is
defined for every text: none gives `Other`, one gives that operator's own label,
and two or more give `Combine`. The minus of a signed literal counts as well.
-/
import CalcJournal.Expression.Operator

namespace CalcJournal

/-! ## Labels -/

/-- The label of an expression. -/
inductive Category where
  | addition
  | subtract
  | multiply
  | divide
  | combine
  | other
  deriving DecidableEq, Repr

namespace Category

/-- All categories, in their fixed order. -/
def all : List Category := [.addition, .subtract, .multiply, .divide, .combine, .other]

/-- The word that names the category. -/
def label : Category → String
  | .addition => "Addition"
  | .subtract => "Subtract"
  | .multiply => "Multiply"
  | .divide => "Divide"
  | .combine => "Combine"
  | .other => "Other"

/-- The category that a word names, upper and lower case being different. -/
def ofLabel? (s : String) : Option Category := all.find? fun c => c.label == s

/-- What is said about a word that names no category. -/
def unknownMessage (s : String) : String := "unknown category '" ++ s ++ "'"

/-- A label is read back as its category. -/
@[simp] theorem ofLabel?_label (c : Category) : ofLabel? c.label = some c := by
  cases c <;> decide

/-- Only its label names a category. -/
theorem label_of_ofLabel? {s : String} {c : Category} (h : ofLabel? s = some c) :
    c.label = s := by
  simpa using List.find?_some h

/-! ## Classification -/

/-- The category of an expression whose one operator this is. -/
def single : Operator → Category
  | .add => .addition
  | .subtract => .subtract
  | .multiply => .multiply
  | .divide => .divide

/-- The category for the operators found in a text, in order. -/
def ofOperators : List Operator → Category
  | [] => .other
  | [op] => single op
  | _ :: _ :: _ => .combine

/-- The category of a text, by the operator characters in it. -/
def classify (expression : String) : Category :=
  ofOperators (expression.toList.filterMap Operator.ofChar?)

end Category

end CalcJournal
