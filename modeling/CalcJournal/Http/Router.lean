/-
CalcJournal.Http.Router — how requests are answered.

A request takes a route and asks an endpoint; if there is none, that is the answer.
Its parameters are read first, then its content type, then its body, and the first
of them that is at fault is the answer. Only then is the journal asked. A request
for the head alone is answered like one for the whole, without the body.
-/
import CalcJournal.Http.MediaType
import CalcJournal.Http.Request
import CalcJournal.Http.Response
import CalcJournal.Journal.Basic
import CalcJournal.Json.Lexer

namespace CalcJournal.Http

/-! ## Reading parameters -/

/-- The problem of a parameter that is no text. -/
def notText (name : String) : Problem :=
  .ofStatus 400 ("Invalid URL: Invalid UTF-8 in `" ++ name ++ "`")

/-- The problem of a parameter that is no id. -/
def notId (parameter : List Char) : Problem :=
  .ofStatus 400 ("Invalid URL: Cannot parse `" ++ String.ofList parameter ++ "` to a `i64`")

/-- The id that a segment stands for. -/
def readId (segment : List Char) : Except Problem CalculationId :=
  match parameter? segment with
  | none => .error (notText "id")
  | some parameter =>
    match CalculationId.ofText? parameter with
    | none => .error (notId parameter)
    | some id => .ok id

/-- The text to search for that a segment stands for. -/
def readPredicate (segment : List Char) : Except Problem String :=
  match parameter? segment with
  | none => .error (notText "predicate")
  | some parameter => .ok (String.ofList parameter)

/-! ## Reading bodies -/

/-- The largest number of bytes that a body may have. -/
def bodyLimit : Nat := 2097152

/-- The problem of a body that is not what was asked for. Left out of its detail is what the
faults leave out: in which way a text is no JSON or no date, and the line and column. -/
def bodyProblem : Json.Fault → Problem
  | .malformed => .ofStatus 400 "Failed to parse the request body as JSON"
  | .mismatch place cause =>
    let place := if place.isEmpty then "" else Json.placeText place ++ ": "
    .ofStatus 422
      ("Failed to deserialize the JSON body into the target type: " ++ place ++ cause.message)

/-- Reads the body of a request: its content type first, then its length, then its tokens. -/
def readBody {α : Type} (read : List Json.Token → Except Json.Fault α) (r : Request) :
    Except Problem α :=
  if !(r.contentType.map isJson).getD false then
    .error (.ofStatus 415 "Expected request with `Content-Type: application/json`")
  else if bodyLimit < r.body.length then
    .error (.ofStatus 413 "Failed to buffer the request body: length limit exceeded")
  else
    match read (Json.lexBytes r.body) with
    | .error e => .error (bodyProblem e)
    | .ok a => .ok a

/-! ## Answers -/

/-- The answer of a journal as a response. -/
def respond {α : Type} (success : α → Response) (j : Journal α) : Plan Response :=
  j.map fun
    | .ok a => success a
    | .error e => .problem (.ofJournalError e)

/-- The answer to a list, which is a problem when the list is empty. -/
def listResponse (emptyDetail : String) : List Calculation → Response
  | [] => .problem (.notFound emptyDetail)
  | cs => .json 200 (.calculations cs)

/-- The answer to a filed calculation, which names the place where it is found. -/
def createdResponse (c : Calculation) : Response :=
  { Response.json 201 (.calculation c) with location := some ("/calculations/" ++ c.id.text) }

/-- The rules under which requests are answered: the longest expression, and the present. -/
structure Context where
  limit : Nat
  now : Instant
  deriving DecidableEq

/-- Asks an endpoint on behalf of a request. -/
def Endpoint.answer (context : Context) (r : Request) : Endpoint → Plan Response
  | .health => .answer (.json 200 .health)
  | .history => respond (listResponse "History is empty") Journal.history
  | .search segment =>
    match readPredicate segment with
    | .error p => .answer (.problem p)
    | .ok text =>
      respond (listResponse ("No calculations match '" ++ text ++ "'")) (Journal.search text)
  | .get segment =>
    match readId segment with
    | .error p => .answer (.problem p)
    | .ok id => respond (fun c => .json 200 (.calculation c)) (Journal.get id)
  | .create =>
    match readBody Json.readRequest r with
    | .error p => .answer (.problem p)
    | .ok expression =>
      respond createdResponse (Journal.create context.limit context.now expression)
  | .update segment =>
    match readId segment with
    | .error p => .answer (.problem p)
    | .ok id =>
      match readBody Json.readCalculation r with
      | .error p => .answer (.problem p)
      | .ok c =>
        respond (fun c => .json 200 (.calculation c)) (Journal.update context.limit id c)
  | .delete segment =>
    match readId segment with
    | .error p => .answer (.problem p)
    | .ok id => respond (fun _ => .bare 204) (Journal.delete id)

/-- Answers a request. -/
def answer (context : Context) (r : Request) : Plan Response :=
  match Route.ofPath? (Target.path r.target.toList) with
  | none => .answer (.bare 404)
  | some route =>
    match route.endpoint? r.method with
    | none => .answer (.methodNotAllowed route.methods)
    | some endpoint =>
      let response := endpoint.answer context r
      if r.method == "HEAD" then response.map Response.withoutBody else response

end CalcJournal.Http
