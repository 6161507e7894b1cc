/-
CalcJournal.Http.Problem — problem documents, which say why a request failed.

A problem has a type, a title, a status and a detail that belongs to the one
occurrence. What a failing store says is not for the client, so its problem has a
detail that is always the same.
-/
import CalcJournal.Http.Reason
import CalcJournal.Journal.JournalError
import CalcJournal.Json.Calculation

namespace CalcJournal.Http

/-- A problem document. -/
structure Problem where
  typeUri : String
  title : String
  status : Nat
  detail : String
  deriving DecidableEq, Repr

namespace Problem

/-! ## Making problems -/

/-- A problem without a type of its own. -/
def of (status : Nat) (title detail : String) : Problem := ⟨"about:blank", title, status, detail⟩

/-- A problem whose title is the phrase of its status. -/
def ofStatus (status : Nat) (detail : String) : Problem := .of status (reason status) detail

/-- What was asked for is not there. -/
def notFound (detail : String) : Problem := .of 404 "Not Found" detail

/-- What a client is told when the store has failed. -/
def storeDetail : String := "The calculation store is unavailable"

/-- The problem of a refused request. -/
def ofJournalError (e : JournalError) : Problem :=
  match e with
  | .parse _ => .of 400 "Invalid Expression" e.message
  | .idMismatch _ _ => .of 400 "Bad Request" e.message
  | .validation _ _ => .of 422 "Validation Failed" e.message
  | .notFound _ => notFound e.message
  | .storage _ => .of 500 "Internal Server Error" storeDetail

/-! ## Sending problems -/

/-- The codes that a response may have. -/
def isStatus (code : Nat) : Bool := 100 ≤ code && code ≤ 999

/-- The code under which a problem is sent. -/
def sentStatus (p : Problem) : Nat := if isStatus p.status then p.status else 500

/-- The problem as JSON. -/
def tokens (p : Problem) : List Json.Token :=
  .openObject ::
    (Json.fieldTokens "type" (.ofString p.typeUri) ++ .comma ::
    (Json.fieldTokens "title" (.ofString p.title) ++ .comma ::
    (Json.fieldTokens "status" (.number (.ofInt p.status)) ++ .comma ::
    (Json.fieldTokens "detail" (.ofString p.detail) ++ [.closeObject]))))

end Problem

end CalcJournal.Http
