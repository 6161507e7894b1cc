/-
CalcJournal.Proofs.Store.Row — what a row keeps of a calculation.

Three columns are encodings: the label of the category, the text of the date, and the
result. The label is read back as it was written, and the text of the date as what it shows
of the date, which has been cut. The result column loses the not-a-number value and the sign
of zero; an empty column is read as the one, and the other makes no difference to a number.
So a row is read back as `Calculation.kept`, which agrees with what was written in the sense
of `Calculation.ReadsAs`.
-/
import CalcJournal.Proofs.Calendar.Order
import CalcJournal.Store.Basic

namespace CalcJournal

/-! ## 1. Results -/

namespace Binary64

/-- Two results are equal as numbers, where both zeros count as one, or neither is a
number. -/
def SameNumber (x y : Binary64) : Prop :=
  x = y ∨ ∃ s t : Bool, x = zero s ∧ y = zero t

/-- What the result column gives back is the same number. -/
theorem sameNumber_column (x : Binary64) : SameNumber ((Row.column x).getD .nan) x := by
  unfold Row.column
  split
  case h_1 => exact .inl rfl
  case h_2 =>
    split
    case isTrue hzero => exact .inr ⟨false, true, rfl, hzero⟩
    case isFalse => exact .inl rfl

end Binary64

/-! ## 2. Rows -/

namespace Calculation

/-- What the store keeps of a calculation. -/
def kept (c : Calculation) : Calculation :=
  { c.cut.asWritten with result := (Row.column c.result).getD .nan }

/-- A record reads as a calculation that was written: with the same id, category and
expression, with its date cut to microseconds and as it is written then, and with the same
number as a result. -/
structure ReadsAs (read written : Calculation) : Prop where
  id : read.id = written.id
  category : read.category = written.category
  expression : read.expression = written.expression
  created : read.created = written.created.toMicroseconds.asWritten
  result : read.result.SameNumber written.result

/-- What is kept of a calculation reads as that calculation. -/
theorem kept_readsAs (c : Calculation) : c.kept.ReadsAs c :=
  ⟨rfl, rfl, rfl, rfl, Binary64.sameNumber_column c.result⟩

/-- What is kept of a calculation is dated to whole microseconds. -/
theorem cut_kept (c : Calculation) : c.kept.cut = c.kept := by
  simp only [kept, cut, asWritten, Instant.toMicroseconds_asWritten,
    Instant.toMicroseconds_toMicroseconds]

/-- What is kept of a calculation is written as it is. -/
theorem asWritten_kept (c : Calculation) : c.kept.asWritten = c.kept := by
  simp only [kept, asWritten, Instant.asWritten_asWritten]

/-- The row that a calculation is written to. -/
def row (c : Calculation) : Row := .ofCalculation c.cut

@[simp] theorem row_id (c : Calculation) : c.row.id = c.id := rfl

end Calculation

namespace Row

/-- The row of a calculation is read back as what it keeps. -/
theorem toCalculation_row (c : Calculation) : c.row.toCalculation = .ok c.kept := by
  have hcategory : Category.ofLabel? c.row.category = some c.category :=
    Category.ofLabel?_label c.category
  have hcreated : Instant.ofText? c.row.created = some c.created.toMicroseconds.asWritten := by
    have hread := Instant.ofText?_text .microseconds c.created.toMicroseconds
    rw [Instant.kept, Instant.toMicroseconds_toMicroseconds] at hread
    exact hread
  rw [toCalculation, hcategory]
  simp only [hcreated]
  rfl

/-- What the result column gives back is kept as it is. -/
theorem column_getD_column (x : Binary64) : column ((column x).getD .nan) = column x := by
  cases x with
  | nan => rfl
  | infinite negative => rfl
  | finite negative rank =>
    by_cases hzero : Binary64.finite negative rank = .zero true
    · rw [hzero]
      rfl
    · have hcolumn : column (.finite negative rank) = some (.finite negative rank) := if_neg hzero
      rw [hcolumn, Option.getD_some, hcolumn]

/-- The date of a row is the text of the date of its calculation. -/
theorem created_row (c : Calculation) : c.row.created = c.created.text .microseconds :=
  Instant.text_toMicroseconds c.created

/-- What is kept of a calculation is kept in the same row. -/
theorem row_kept (c : Calculation) : c.kept.row = c.row := by
  have hcreated : c.kept.row.created = c.row.created := by
    rw [created_row, created_row]
    exact (Instant.text_asWritten _ _).trans (Instant.text_toMicroseconds c.created)
  simp only [Calculation.row, ofCalculation] at hcreated ⊢
  rw [hcreated]
  simp only [Calculation.cut, Calculation.kept, Calculation.asWritten, column_getD_column]

/-- A row that can be read is read as a calculation with its id. -/
theorem id_of_toCalculation {r : Row} {c : Calculation} (h : r.toCalculation = .ok c) :
    c.id = r.id := by
  unfold toCalculation at h
  split at h
  · simp at h
  · split at h
    · simp at h
    · rw [← Except.ok.inj h]

/-- The date of a row that can be read is what its text writes. -/
theorem created_of_toCalculation {r : Row} {c : Calculation} (h : r.toCalculation = .ok c) :
    Instant.ofText? r.created = some c.created := by
  unfold toCalculation at h
  split at h
  · simp at h
  · split at h
    · simp at h
    · rename_i hcreated
      rw [hcreated, ← Except.ok.inj h]

end Row

end CalcJournal
