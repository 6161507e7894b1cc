/-
CalcJournal.Proofs.Http.Intake — what is read of a request before the journal is asked.

A segment stands for an id, or the request is bad. A body is looked at three times: its content
type has to be JSON, it must not be longer than the limit, and its tokens have to be those of
what was asked for. The first time that it fails gives the status (`BodyFault`), and a body that
passes all three is read (`Request.Carries`).
-/
import CalcJournal.Http.Router

namespace CalcJournal.Http

/-! ## 1. Segments -/

/-- The id that a segment stands for, if it stands for one. -/
def segmentId? (segment : List Char) : Option CalculationId :=
  (parameter? segment).bind CalculationId.ofText?

theorem readId_of_segmentId? {segment : List Char} {id : CalculationId}
    (h : segmentId? segment = some id) : readId segment = .ok id := by
  obtain ⟨parameter, hparameter, hid⟩ := Option.bind_eq_some_iff.1 h
  simp only [readId, hparameter, hid]

/-- A segment that stands for no id is a bad request. -/
theorem exists_readId_error {segment : List Char} (h : segmentId? segment = none) :
    ∃ p, readId segment = .error p ∧ p.status = 400 := by
  unfold readId
  split
  case h_1 => exact ⟨_, rfl, rfl⟩
  case h_2 parameter hparameter =>
    rw [segmentId?, hparameter, Option.bind_some] at h
    simp only [h]
    exact ⟨_, rfl, rfl⟩

/-! ## 2. Bodies -/

/-- A request that names JSON as its content type. -/
def Request.NamesJson (r : Request) : Prop :=
  ∃ contentType, r.contentType = some contentType ∧ isJson contentType = true

theorem Request.namesJson_iff {r : Request} :
    (r.contentType.map isJson).getD false = true ↔ r.NamesJson := by
  unfold NamesJson
  cases r.contentType with
  | none => simp
  | some contentType => simp

section Bodies

variable {α : Type} (read : List Json.Token → Except Json.Fault α) (r : Request)

/-- Why the body of a request is refused, and under which status. -/
inductive BodyFault : Nat → Prop
  | notJson (h : ¬ r.NamesJson) : BodyFault 415
  | tooLarge (json : r.NamesJson) (h : bodyLimit < r.body.length) : BodyFault 413
  | broken (json : r.NamesJson) (short : r.body.length ≤ bodyLimit)
      (h : read (Json.lexBytes r.body) = .error .malformed) : BodyFault 400
  | misshapen {place : List Json.PlaceStep} {cause : Json.Mismatch} (json : r.NamesJson)
      (short : r.body.length ≤ bodyLimit)
      (h : read (Json.lexBytes r.body) = .error (.mismatch place cause)) : BodyFault 422

/-- A request whose body is read. -/
structure Request.Carries (a : α) : Prop where
  json : r.NamesJson
  short : r.body.length ≤ bodyLimit
  read_eq : read (Json.lexBytes r.body) = .ok a

variable {read r}

/-- A body is read, or it is refused under a status of its own. -/
theorem readBody_cases :
    (∃ a, r.Carries read a) ∨ ∃ status, BodyFault read r status := by
  by_cases json : r.NamesJson
  · rcases Nat.lt_or_ge bodyLimit r.body.length with long | short
    · exact .inr ⟨413, .tooLarge json long⟩
    cases hread : read (Json.lexBytes r.body) with
    | ok a => exact .inl ⟨a, json, short, hread⟩
    | error fault =>
      cases fault with
      | malformed => exact .inr ⟨400, .broken json short hread⟩
      | mismatch place cause => exact .inr ⟨422, .misshapen json short hread⟩
  · exact .inr ⟨415, .notJson json⟩

/-- A body that is JSON and short enough is read to its end. -/
theorem readBody_of_short (json : r.NamesJson) (short : r.body.length ≤ bodyLimit) :
    readBody read r = (read (Json.lexBytes r.body)).mapError bodyProblem := by
  have hjson := Request.namesJson_iff.2 json
  rw [readBody, hjson, if_neg (by decide), if_neg (Nat.not_lt.2 short)]
  cases read (Json.lexBytes r.body) <;> rfl

theorem Request.Carries.readBody_eq {a : α} (h : r.Carries read a) : readBody read r = .ok a := by
  rw [readBody_of_short h.json h.short, h.read_eq]
  rfl

/-- A body is refused under the status that its fault has. -/
theorem BodyFault.exists_readBody_error {status : Nat} (h : BodyFault read r status) :
    ∃ p, readBody read r = .error p ∧ p.status = status := by
  cases h with
  | notJson h =>
    have hjson : (r.contentType.map isJson).getD false = false :=
      Bool.not_eq_true _ ▸ mt Request.namesJson_iff.1 h
    obtain ⟨detail, hread⟩ : ∃ detail, readBody read r = .error (.ofStatus 415 detail) :=
      ⟨_, by rw [readBody, hjson]; rfl⟩
    exact ⟨_, hread, rfl⟩
  | tooLarge json h =>
    have hjson := Request.namesJson_iff.2 json
    obtain ⟨detail, hread⟩ : ∃ detail, readBody read r = .error (.ofStatus 413 detail) :=
      ⟨_, by rw [readBody, hjson, if_neg (by decide), if_pos h]⟩
    exact ⟨_, hread, rfl⟩
  | broken json short h =>
    refine ⟨bodyProblem .malformed, ?_, rfl⟩
    rw [readBody_of_short json short, h]
    rfl
  | @misshapen place cause json short h =>
    refine ⟨bodyProblem (.mismatch place cause), ?_, rfl⟩
    rw [readBody_of_short json short, h]
    rfl

end Bodies

end CalcJournal.Http
