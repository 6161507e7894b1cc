/-
CalcJournal.Proofs.Text.Scanning — where a scan stops.

A scan takes characters from the front of a text while they satisfy a test. A text
`Stops` a test when its first character fails it, if there is one. In front of such
a text the scan takes exactly the prefix that satisfies the test, so a prefix and
what stops it are told apart in one way only.
-/
import CalcJournal.Text.Blank

namespace CalcJournal.Text

/-- The first character of a text, if there is one, fails the test. -/
def Stops (p : Char → Bool) (cs : List Char) : Prop := ∀ c ∈ cs.head?, p c = false

variable {p : Char → Bool}

@[simp] theorem stops_nil : Stops p [] := by simp [Stops]

@[simp] theorem stops_cons {c : Char} {cs : List Char} : Stops p (c :: cs) ↔ p c = false := by
  simp [Stops]

theorem takeWhile_of_stops {cs : List Char} (h : Stops p cs) : cs.takeWhile p = [] := by
  cases cs with
  | nil => rfl
  | cons c cs => simp [stops_cons.1 h]

theorem dropWhile_of_stops {cs : List Char} (h : Stops p cs) : cs.dropWhile p = cs := by
  cases cs with
  | nil => rfl
  | cons c cs => simp [stops_cons.1 h]

/-- What a scan leaves stops it. -/
theorem stops_dropWhile (p : Char → Bool) (cs : List Char) : Stops p (cs.dropWhile p) := by
  induction cs with
  | nil => simp
  | cons c cs ih =>
    by_cases h : p c = true
    · simpa [h] using ih
    · simp [h]

/-- A scan takes the prefix that satisfies the test and stops behind it. -/
theorem takeWhile_prefix {pre rest : List Char} (hpre : ∀ c ∈ pre, p c = true)
    (hrest : Stops p rest) : (pre ++ rest).takeWhile p = pre := by
  rw [List.takeWhile_append_of_pos hpre, takeWhile_of_stops hrest, List.append_nil]

/-- A scan leaves what follows the prefix that satisfies the test. -/
theorem dropWhile_prefix {pre rest : List Char} (hpre : ∀ c ∈ pre, p c = true)
    (hrest : Stops p rest) : (pre ++ rest).dropWhile p = rest := by
  rw [List.dropWhile_append_of_pos hpre, dropWhile_of_stops hrest]

/-- A prefix that satisfies the test and a rest that stops it are determined by the text. -/
theorem prefix_unique {pre pre' rest rest' : List Char} (hpre : ∀ c ∈ pre, p c = true)
    (hpre' : ∀ c ∈ pre', p c = true) (hrest : Stops p rest) (hrest' : Stops p rest')
    (h : pre ++ rest = pre' ++ rest') : pre = pre' ∧ rest = rest' := by
  constructor
  · rw [← takeWhile_prefix hpre hrest, h, takeWhile_prefix hpre' hrest']
  · rw [← dropWhile_prefix hpre hrest, h, dropWhile_prefix hpre' hrest']

/-! ## Leading blanks -/

theorem allBlank_takeWhile (cs : List Char) : allBlank (cs.takeWhile isBlank) = true :=
  List.all_takeWhile

theorem takeWhile_append_dropBlanks (cs : List Char) : cs.takeWhile isBlank ++ dropBlanks cs = cs :=
  List.takeWhile_append_dropWhile

/-- Blanks in front of a text are dropped with those that it starts with. -/
theorem dropBlanks_append {blanks : List Char} (h : allBlank blanks = true) (cs : List Char) :
    dropBlanks (blanks ++ cs) = dropBlanks cs :=
  List.dropWhile_append_of_pos (List.all_eq_true.1 h)

end CalcJournal.Text
