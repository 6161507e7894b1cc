/-
CalcJournal.Http.Reading — what a client reads in a response.

A response carries its body as the bytes of a JSON text. A client that knows what it asked for
reads a calculation or a list of calculations in them; one that was refused reads a problem, of
which every field must be there and the status must be a number of sixteen bits.
-/
import CalcJournal.Http.Response
import CalcJournal.Json.Lexer
import CalcJournal.Json.Sequence

namespace CalcJournal.Http

/-! ## Problems -/

/-- A status code, which is an integer of sixteen bits without a sign. -/
def readCode : Json.Reader Nat :=
  .ofToken fun t =>
    match t with
    | .number n =>
      match n.numeral? with
      | some (.integer i) =>
        if 0 ≤ i ∧ i ≤ 65535 then .ok i.toNat
        else .error (.mismatch [] (.invalidInteger i "u16"))
      | _ => .error (.wrongType "u16" [t])
    | _ => .error (.wrongType "u16" [t])

/-- A problem as far as it has been read. -/
structure ProblemFields where
  typeUri : Option String
  title : Option String
  status : Option Nat
  detail : Option String

/-- The problem, if no field is lacking. -/
def ProblemFields.finish (f : ProblemFields) : Except Json.Mismatch Problem := do
  let typeUri ← Json.required "type" f.typeUri
  let title ← Json.required "title" f.title
  let status ← Json.required "status" f.status
  let detail ← Json.required "detail" f.detail
  return ⟨typeUri, title, status, detail⟩

/-- The shape of a problem. -/
def problemShape : Json.Shape ProblemFields Problem where
  name := "struct Problem"
  size := "4 elements"
  empty := ⟨none, none, none, none⟩
  fields :=
    [.of "type" (·.typeUri) (fun b f => { f with typeUri := some b }) Json.readString,
      .of "title" (·.title) (fun b f => { f with title := some b }) Json.readString,
      .of "status" (·.status) (fun b f => { f with status := some b }) readCode,
      .of "detail" (·.detail) (fun b f => { f with detail := some b }) Json.readString]
  finish := ProblemFields.finish

/-- The problem that a text is. -/
def readProblem (ts : List Json.Token) : Except Json.Fault Problem := problemShape.read ts

/-! ## Calculations -/

/-- The calculations that a text lists. -/
def readCalculations (ts : List Json.Token) : Except Json.Fault (List Calculation) :=
  Json.readList Json.calculationShape.reader ts

/-! ## Bodies -/

/-- The bytes of a body. -/
def Body.bytes (b : Body) : List UInt8 := Utf8.encode b.text.toList

end CalcJournal.Http
