/-
CalcJournal.Journal.Basic — filing expressions and tending what was filed.

An expression that is filed must not be longer than the limit, which counts
characters, and must be readable; its category, its value and the present instant
are filed with it. A calculation that is written over is taken as it is given, but
its expression must not be blank nor longer than the limit. Each use of the journal
asks the store for one thing at most, and nothing before the request has been
checked.
-/
import CalcJournal.Expression.Parser
import CalcJournal.Journal.JournalError
import CalcJournal.Store.Repository

namespace CalcJournal

/-- A use of the journal: a plan that ends with an answer or a refusal. -/
abbrev Journal (α : Type) : Type := Plan (Except JournalError α)

namespace Journal

/-! ## Checks -/

/-- What is said about an expression that is too long. -/
def tooLong (limit length : Nat) : JournalError :=
  .validation "expression"
    ("must be at most " ++ toString limit ++ " characters, got " ++ toString length)

/-- What is said about an expression that is blank. -/
def blank : JournalError := .validation "expression" "must not be empty"

/-- What is wrong with a draft of an expression, or its category and value. -/
def assess (limit : Nat) (expression : String) :
    Except JournalError (Category × Binary64) :=
  if limit < expression.length then .error (tooLong limit expression.length)
  else
    match Expression.evaluate expression with
    | .error e => .error (.parse e)
    | .ok value => .ok (Category.classify expression, value)

/-- What is wrong with writing a calculation over the one with an id, if anything. -/
def objection? (limit : Nat) (id : CalculationId) (c : Calculation) : Option JournalError :=
  if id ≠ c.id then some (.idMismatch id c.id)
  else if Text.allBlank c.expression.toList then some blank
  else if limit < c.expression.length then some (tooLong limit c.expression.length)
  else none

/-! ## Uses -/

/-- Asks the store for one thing and passes its reply on. -/
def relay (c : Command) : Journal c.Answer :=
  .ask c (·.mapError JournalError.ofStoreError)

/-- Files an expression at an instant. -/
def create (limit : Nat) (now : Instant) (expression : String) : Journal Calculation :=
  match assess limit expression with
  | .error e => .answer (.error e)
  | .ok (category, value) => relay (.create ⟨category, expression, now, value⟩)

/-- The calculation of an id. -/
def get (id : CalculationId) : Journal Calculation :=
  .ask (.find id) fun
    | .error e => .error (.ofStoreError e)
    | .ok none => .error (.notFound id)
    | .ok (some c) => .ok c

/-- All calculations, the latest first. -/
def history : Journal (List Calculation) := relay .list

/-- The calculations that mention a text, the latest first. -/
def search (text : String) : Journal (List Calculation) := relay (.search text)

/-- Writes a calculation over the one with an id. -/
def update (limit : Nat) (id : CalculationId) (c : Calculation) : Journal Calculation :=
  match objection? limit id c with
  | some e => .answer (.error e)
  | none => relay (.update c)

/-- Deletes the calculation of an id. -/
def delete (id : CalculationId) : Journal Unit := relay (.delete id)

end Journal

end CalcJournal
