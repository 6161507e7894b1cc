/-
CalcJournal.Expression.Parser — from a text to the chain it writes.

A text is read from left to right by a cursor that counts bytes. Where a number
is due, a literal is read at full length; a minus belongs to it when the very
next character is a digit or a point, and is an operator otherwise. Where an
operator is due, only an operator or the end will do. Blanks are skipped before
each of the two. The first character that fits neither is the fault reported.
-/
import CalcJournal.Expression.Chain
import CalcJournal.Expression.Literal
import CalcJournal.Expression.ParseError
import CalcJournal.Text.Blank

namespace CalcJournal

/-! ## Cursors -/

/-- A place in a text: the bytes before it and the characters from it on. -/
structure Cursor where
  offset : Nat
  rest : List Char
  deriving DecidableEq, Repr

/-- The number of bytes in the UTF-8 form of a text. -/
def byteLength : List Char → Nat
  | [] => 0
  | c :: cs => c.utf8Size + byteLength cs

namespace Cursor

/-- The front of a text. -/
def start (cs : List Char) : Cursor := ⟨0, cs⟩

/-- The cursor moved over the front characters that satisfy `p`. -/
def skip (p : Char → Bool) (c : Cursor) : Cursor :=
  ⟨c.offset + byteLength (c.rest.takeWhile p), c.rest.dropWhile p⟩

/-- The cursor moved over blanks. -/
def skipBlanks (c : Cursor) : Cursor := c.skip Text.isBlank

/-- Skipping never adds characters. -/
theorem length_skip_le (p : Char → Bool) (c : Cursor) :
    (c.skip p).rest.length ≤ c.rest.length :=
  (List.dropWhile_sublist p).length_le

/-- Skipping blanks never adds characters. -/
theorem length_skipBlanks_le (c : Cursor) : c.skipBlanks.rest.length ≤ c.rest.length :=
  length_skip_le Text.isBlank c

end Cursor

namespace Expression

/-! ## Numbers -/

/-- Reads the run of a literal from `c`, which stands behind the minus if there is one;
the literal starts at `start`. -/
def readRun (negative : Bool) (start : Nat) (c : Cursor) :
    Except ParseError (Binary64 × Cursor) :=
  let run := Literal.run c.rest
  if Literal.isWellFormed run then
    .ok (Literal.value negative run, c.skip Literal.isLiteralChar)
  else
    .error (.malformedNumber (String.ofList (if negative then '-' :: run else run)) start)

/-- Reads the literal at the cursor, which starts one. -/
def readLiteral (c : Cursor) : Except ParseError (Binary64 × Cursor) :=
  match c.rest with
  | '-' :: rest => readRun true c.offset ⟨c.offset + 1, rest⟩
  | _ => readRun false c.offset c

/-- Reads the number that is due at the cursor; `pending` is the place of the operator
that it belongs to, if it is not the first number. -/
def readOperand (pending : Option Nat) (c : Cursor) :
    Except ParseError (Binary64 × Cursor) :=
  let here := c.skipBlanks
  match here.rest with
  | [] => .error (match pending with | some place => .missingOperand place | none => .empty)
  | ch :: _ =>
    if Literal.starts here.rest then readLiteral here
    else if Operator.isSymbol ch then .error (.unexpectedOperator ch here.offset)
    else .error (.invalidCharacter ch here.offset)

/-! ## Reading a number moves the cursor -/

theorem length_of_readRun {negative : Bool} {start : Nat} {c d : Cursor} {x : Binary64}
    (h : readRun negative start c = .ok (x, d)) : d.rest.length < c.rest.length := by
  unfold readRun at h
  dsimp only at h
  split at h
  case isFalse => simp at h
  case isTrue hw =>
    obtain ⟨-, rfl⟩ := Prod.mk.inj (Except.ok.inj h)
    have hne : Literal.run c.rest ≠ [] := by
      intro h0; simp [h0, Literal.isWellFormed] at hw
    have hsum := congrArg List.length (Literal.run_append_afterRun c.rest)
    rw [List.length_append] at hsum
    have hpos := List.length_pos_iff.2 hne
    show (Literal.afterRun c.rest).length < _
    omega

theorem length_of_readLiteral {c d : Cursor} {x : Binary64}
    (h : readLiteral c = .ok (x, d)) : d.rest.length < c.rest.length := by
  unfold readLiteral at h
  split at h
  case h_1 rest hrest =>
    have := length_of_readRun h
    rw [hrest]; simp only [List.length_cons] at this ⊢; omega
  case h_2 => exact length_of_readRun h

/-- A number that has been read is behind the cursor. -/
theorem length_of_readOperand {pending : Option Nat} {c d : Cursor} {x : Binary64}
    (h : readOperand pending c = .ok (x, d)) : d.rest.length < c.rest.length := by
  have hle := c.length_skipBlanks_le
  unfold readOperand at h
  dsimp only at h
  split at h
  · simp at h
  · split at h
    · have := length_of_readLiteral h; omega
    · split at h <;> simp at h

/-! ## Steps -/

/-- Reads operators with their numbers up to the end; `done` holds the steps read before,
latest first. -/
def readSteps (done : List Step) (c : Cursor) : Except ParseError (List Step) :=
  match _hrest : c.skipBlanks.rest with
  | [] => .ok done.reverse
  | ch :: rest =>
    match Operator.ofChar? ch with
    | some op =>
      match _hread : readOperand (some c.skipBlanks.offset) ⟨c.skipBlanks.offset + 1, rest⟩ with
      | .error e => .error e
      | .ok (x, next) => readSteps (⟨op, x⟩ :: done) next
    | none =>
      if Literal.isLiteralChar ch then .error (.unexpectedNumber c.skipBlanks.offset)
      else .error (.invalidCharacter ch c.skipBlanks.offset)
termination_by c.rest.length
decreasing_by
  have hle := c.length_skipBlanks_le
  have hlt := length_of_readOperand _hread
  rw [_hrest] at hle
  simp only [List.length_cons] at hle hlt
  omega

/-! ## Expressions -/

/-- The chain that a text writes, or its first fault. -/
def parseChars (cs : List Char) : Except ParseError Chain :=
  match readOperand none (Cursor.start cs) with
  | .error e => .error e
  | .ok (first, c) =>
    match readSteps [] c with
    | .error e => .error e
    | .ok steps => .ok ⟨first, steps⟩

/-- The chain that an expression writes, or its first fault. -/
def parse (expression : String) : Except ParseError Chain := parseChars expression.toList

/-- The numbers and operators of an expression in the order in which they are written. -/
def tokenize (expression : String) : Except ParseError (List Token) :=
  (parse expression).map Chain.tokens

/-- The value of an expression. -/
def evaluate (expression : String) : Except ParseError Binary64 :=
  (parse expression).map Chain.reduce

end Expression

end CalcJournal
