/-
CalcJournal.Json.Skip — passing over a value without reading it.

A value is passed over token by token. What is kept is which brackets are open,
innermost first, and what is due next, so nesting has no limit of its own. Which
tokens may occur is the caller's choice: a value that nobody reads may hold numbers
of any size and strings that are no texts, and may be nested at will; a value that
is looked at and refused may not.
-/
import CalcJournal.Json.Token

namespace CalcJournal.Json

/-! ## States -/

/-- A bracket that is open. -/
inductive Frame where
  | array
  | object
  deriving DecidableEq, Repr

/-- What is due next. -/
inductive Due where
  /-- A value. -/
  | value
  /-- The first value of an array, or its end. -/
  | element
  /-- The first name of an object, or its end. -/
  | member
  /-- A name. -/
  | name
  /-- The colon behind a name. -/
  | colon
  /-- A comma, or the end of the innermost bracket. -/
  | separator
  deriving DecidableEq, Repr

/-- A token that is a value by itself. -/
def Token.isScalar : Token → Bool
  | .null | .bool _ | .number _ | .string _ => true
  | _ => false

/-- The state behind a token where a value is due. -/
def stepValue (stack : List Frame) : Token → Option (List Frame × Due)
  | .openArray => some (.array :: stack, .element)
  | .openObject => some (.object :: stack, .member)
  | t => if t.isScalar then some (stack, .separator) else none

/-- The state behind a token; none when the token is not what is due. -/
def step (stack : List Frame) (due : Due) (t : Token) : Option (List Frame × Due) :=
  match due, stack, t with
  | .element, .array :: outer, .closeArray => some (outer, .separator)
  | .value, _, _ | .element, _, _ => stepValue stack t
  | .member, .object :: outer, .closeObject => some (outer, .separator)
  | .member, _, .string _ | .name, _, .string _ => some (stack, .colon)
  | .colon, _, .colon => some (stack, .value)
  | .separator, .array :: outer, .closeArray => some (outer, .separator)
  | .separator, .array :: _, .comma => some (stack, .value)
  | .separator, .object :: outer, .closeObject => some (outer, .separator)
  | .separator, .object :: _, .comma => some (stack, .name)
  | _, _, _ => none

/-! ## Passing over -/

/-- Passes over tokens until every bracket is closed and a value is complete; `admits`
says which tokens may occur inside how many open brackets. -/
def skipFrom (admits : Nat → Token → Bool) (stack : List Frame) (due : Due) :
    List Token → Option (List Token)
  | [] => if stack.isEmpty && due == .separator then some [] else none
  | t :: rest =>
    if stack.isEmpty && due == .separator then some (t :: rest)
    else if admits stack.length t then
      match step stack due t with
      | some (stack, due) => skipFrom admits stack due rest
      | none => none
    else none

/-- What follows the value at the front. -/
def skip (admits : Nat → Token → Bool) (ts : List Token) : Option (List Token) :=
  skipFrom admits [] .value ts

/-- Any token may occur in a value that nobody reads. -/
def admitsAny (_ : Nat) (_ : Token) : Bool := true

/-- The depth to which a value that is looked at may be nested. -/
def deepest : Nat := 126

/-- In a value that is looked at, strings are texts, numbers fit a double, and nesting is
limited. -/
def admitsPlain (depth : Nat) : Token → Bool
  | .number n => n.numeral?.isSome
  | .string text => text.isSome
  | .openArray | .openObject => depth < deepest
  | _ => true

/-! ## Passing over shortens the tokens -/

theorem length_skipFrom_le {admits : Nat → Token → Bool} {stack : List Frame} {due : Due}
    {ts rest : List Token} (h : skipFrom admits stack due ts = some rest) :
    rest.length ≤ ts.length := by
  induction ts generalizing stack due with
  | nil =>
    simp only [skipFrom] at h
    split at h <;> simp_all
  | cons t ts ih =>
    simp only [skipFrom] at h
    split at h
    · simp_all
    · split at h
      · split at h
        · have := ih h; simp only [List.length_cons]; omega
        · simp at h
      · simp at h

/-- A value has at least one token. -/
theorem length_skip_lt {admits : Nat → Token → Bool} {ts rest : List Token}
    (h : skip admits ts = some rest) : rest.length < ts.length := by
  cases ts with
  | nil => simp [skip, skipFrom] at h
  | cons t ts =>
    simp only [skip, skipFrom] at h
    split at h
    · rename_i hdue; simp at hdue
    · split at h
      · split at h
        · have := length_skipFrom_le h; simp only [List.length_cons]; omega
        · simp at h
      · simp at h

end CalcJournal.Json
