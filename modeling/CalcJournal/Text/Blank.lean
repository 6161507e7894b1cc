/-
CalcJournal.Text.Blank — which characters are blank.

A character is blank when it has the Unicode property White_Space: the five
controls from tab to carriage return, the space, the next-line control, the
no-break space and the seventeen blanks beyond Latin-1. Expressions, dates,
setting values and the tests for "nothing but blanks" all read this one set.
-/

namespace CalcJournal.Text

/-! ## The set -/

/-- The ranges of White_Space, first and last code point, in ascending order. -/
def blankRanges : List (Nat × Nat) :=
  [(0x9, 0xD), (0x20, 0x20), (0x85, 0x85), (0xA0, 0xA0), (0x1680, 0x1680), (0x2000, 0x200A),
   (0x2028, 0x2029), (0x202F, 0x202F), (0x205F, 0x205F), (0x3000, 0x3000)]

/-- A character is blank when one of the ranges holds it. -/
def isBlank (c : Char) : Bool :=
  blankRanges.any fun r => r.1 ≤ c.toNat && c.toNat ≤ r.2

/-- A text is blank when all its characters are, so the empty text is. -/
def allBlank (cs : List Char) : Bool := cs.all isBlank

/-! ## Leading blanks -/

/-- The text without its leading blanks. -/
def dropBlanks (cs : List Char) : List Char := cs.dropWhile isBlank

/-- A text is blank exactly when dropping its leading blanks leaves nothing. -/
theorem dropBlanks_eq_nil_iff (cs : List Char) : dropBlanks cs = [] ↔ allBlank cs = true := by
  induction cs with
  | nil => simp [dropBlanks, allBlank]
  | cons c cs ih =>
    by_cases h : isBlank c = true
    · simp_all [dropBlanks, allBlank]
    · simp [dropBlanks, allBlank, h]

end CalcJournal.Text
