/-
CalcJournal.Text.Occurrence — whether one text occurs in another.

An occurrence is contiguous, and every character stands for itself. The empty text
occurs everywhere.
-/

namespace CalcJournal.Text

/-- Whether the first text occurs in the second. -/
def occursIn (needle : List Char) : List Char → Bool
  | [] => needle.isEmpty
  | c :: cs => needle.isPrefixOf (c :: cs) || occursIn needle cs

/-- A text occurs in another exactly when the other is it with something before and behind. -/
theorem occursIn_iff {needle cs : List Char} :
    occursIn needle cs = true ↔ ∃ before behind, cs = before ++ needle ++ behind := by
  induction cs with
  | nil =>
    constructor
    · intro h
      exact ⟨[], [], by simpa [occursIn] using h⟩
    · rintro ⟨before, behind, h⟩
      simp_all [occursIn]
  | cons c cs ih =>
    simp only [occursIn, Bool.or_eq_true, List.isPrefixOf_iff_prefix, ih]
    constructor
    · rintro (⟨behind, h⟩ | ⟨before, behind, rfl⟩)
      · exact ⟨[], behind, by simp [h]⟩
      · exact ⟨c :: before, behind, rfl⟩
    · rintro ⟨before, behind, h⟩
      cases before with
      | nil => exact .inl ⟨behind, by simpa using h.symm⟩
      | cons b before =>
        simp only [List.cons_append, List.cons.injEq] at h
        exact .inr ⟨before, behind, by simpa using h.2⟩

end CalcJournal.Text
