/-
CalcJournal.Store.StoreError — how keeping the journal can fail.

Apart from asking for a calculation that is not there, all failures are the store's
own, and what they say is for those who run it.
-/
import CalcJournal.Calculation

namespace CalcJournal

/-- The ways in which the store fails. -/
inductive StoreError where
  /-- The store could not be opened. -/
  | connectionFailed (message : String)
  /-- The store refused a request. -/
  | queryFailed (query message : String)
  /-- There is no calculation with this id. -/
  | calculationNotFound (id : CalculationId)
  /-- The store could not be brought into its present form. -/
  | migrationFailed (version message : String)
  /-- A row that is no calculation. -/
  | unreadable (message : String)
  deriving DecidableEq

/-- What is said about a failure of the store. -/
def StoreError.message : StoreError → String
  | .connectionFailed message => "Database connection failed: " ++ message
  | .queryFailed query message => "Query failed: " ++ query ++ " - " ++ message
  | .calculationNotFound id => "Calculation not found: " ++ id.text
  | .migrationFailed version message => "Migration failed: " ++ version ++ " - " ++ message
  | .unreadable message => "Internal storage error: " ++ message

end CalcJournal
