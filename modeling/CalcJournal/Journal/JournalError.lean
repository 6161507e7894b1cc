/-
CalcJournal.Journal.JournalError — why a request to the journal is refused.

The expression may be at fault, or a field, or the id; or the store has failed, and
then the error holds what the store said. A calculation that the store does not have
is no failure of the store.
-/
import CalcJournal.Expression.ParseError
import CalcJournal.Store.StoreError

namespace CalcJournal

/-- The ways in which a request is refused. -/
inductive JournalError where
  /-- The expression cannot be read. -/
  | parse (error : ParseError)
  /-- The store has failed. -/
  | storage (error : StoreError)
  /-- A field does not meet its rule. -/
  | validation (field reason : String)
  /-- There is no calculation with this id. -/
  | notFound (id : CalculationId)
  /-- The id that was asked for is not that of the calculation that was sent. -/
  | idMismatch (asked sent : CalculationId)
  deriving DecidableEq

namespace JournalError

/-- What a failure of the store means to the journal. -/
def ofStoreError : StoreError → JournalError
  | .calculationNotFound id => .notFound id
  | e => .storage e

/-- What is said about a refusal. -/
def message : JournalError → String
  | .parse e => "Invalid expression: " ++ e.message
  | .storage e => "Storage failure: " ++ e.message
  | .validation field reason => "Invalid value for " ++ field ++ ": " ++ reason
  | .notFound id => "Calculation " ++ id.text ++ " doesn't exist"
  | .idMismatch asked sent =>
    "Path id " ++ asked.text ++ " does not match body id " ++ sent.text

end JournalError

end CalcJournal
