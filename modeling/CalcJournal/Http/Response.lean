/-
CalcJournal.Http.Response — what a request is answered with.
-/
import CalcJournal.Http.Problem

namespace CalcJournal.Http

/-! ## Bodies -/

/-- What a response carries. -/
inductive Body where
  | empty
  | health
  | calculation (c : Calculation)
  | calculations (cs : List Calculation)
  | problem (p : Problem)
  deriving DecidableEq

/-- The tokens of a body. -/
def Body.tokens : Body → List Json.Token
  | .empty => []
  | .health => .openObject :: (Json.fieldTokens "status" (.ofString "ok") ++ [.closeObject])
  | .calculation c => Json.calculationTokens c
  | .calculations cs => Json.calculationListTokens cs
  | .problem p => p.tokens

/-- The text of a body. -/
def Body.text (b : Body) : String := String.ofList (Json.write b.tokens)

/-! ## Responses -/

/-- A response, with those of its headers that say something about it. -/
structure Response where
  status : Nat
  contentType : Option String
  location : Option String
  allow : Option String
  body : Body
  deriving DecidableEq

namespace Response

/-- A response with a status and nothing else. -/
def bare (status : Nat) : Response := ⟨status, none, none, none, .empty⟩

/-- A response that carries JSON. -/
def json (status : Nat) (body : Body) : Response :=
  ⟨status, some "application/json", none, none, body⟩

/-- The response that sends a problem. -/
def problem (p : Problem) : Response :=
  ⟨p.sentStatus, some "application/problem+json", none, none, .problem p⟩

/-- A route does not have the method that was asked for, but these. -/
def methodNotAllowed (methods : List String) : Response :=
  { bare 405 with allow := some (",".intercalate methods) }

/-- The response without its body. -/
def withoutBody (r : Response) : Response := { r with body := .empty }

end Response

end CalcJournal.Http
