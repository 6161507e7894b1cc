/-
CalcJournal.Proofs.Http.Envelope — every error is sent as a problem, and read as one.

An endpoint ends in a success of its own, or in a problem. Problems are made in four places: of
a parameter, of a body, of a refusal of the journal, and of a list that is empty. Each of them
makes an error without a type of its own (`Problem.IsError`), so the status of the response is
the one that the problem names, and the fallback for codes that are none is never taken.

A body is sent as the bytes of its tokens, and they are read back (`Body.lexBytes_bytes`). So
whoever asks knows from the status alone what to read: a problem from 400 on, which names that
status again, and below it what the endpoint is there for.

Nothing is said about the store. Every reply to what is asked ends in one of the two
(`Plan.Always`), whether it comes from a store that works, from one that fails, or from anything
else in its place.
-/
import CalcJournal.Http.Reading
import CalcJournal.Proofs.Http.Precedence
import CalcJournal.Proofs.Json.Sequence

namespace CalcJournal

/-! ## 1. All outcomes of a plan -/

namespace Plan

variable {α β : Type} {P : α → Prop} {p : Plan α}

/-- Whatever the plan ends with: the answer that it gives at once, or the one to any reply. -/
def Always (P : α → Prop) : Plan α → Prop
  | .answer a => P a
  | .ask _ next => ∀ reply, P (next reply)

theorem always_of_forall (h : ∀ a, P a) (p : Plan α) : p.Always P := by
  cases p with
  | answer a => exact h a
  | ask c next => exact fun reply => h (next reply)

theorem always_map {Q : β → Prop} {f : α → β} (h : p.Always fun a => Q (f a)) :
    (p.map f).Always Q := by
  cases p with
  | answer a => exact h
  | ask c next => exact h

/-- What a plan always ends with it ends with on any backend. -/
theorem Always.runOn (h : p.Always P) (b : Backend) (x : b.State) : P (p.runOn b x).1 := by
  cases p with
  | answer a => exact h
  | ask c next => exact h _

theorem Always.run (h : p.Always P) (r : Repository) : P (p.run r).1 := by
  rw [← runOn_repositories]
  exact h.runOn .repositories r

end Plan

namespace Http

/-! ## 2. Bodies are read back -/

theorem run_readCode {status : Nat} (h : status < 65536) (rest : List Json.Token) :
    readCode.run (.number (.ofInt status) :: rest) = .ok (status, rest) := by
  have hnumeral : (Json.Number.ofInt status).numeral? = some (.integer status) :=
    Json.Number.numeral?_ofInt (by omega) (by omega)
  have hrange : 0 ≤ (status : Int) ∧ (status : Int) ≤ 65535 := by omega
  simp only [readCode, Json.Reader.ofToken, hnumeral, if_pos hrange, Int.toNat_natCast]
  rfl

/-- The fields of a problem are set one after the other, in the order of the shape. -/
theorem readProblem_tokens {p : Problem} (h : p.status < 65536) :
    readProblem p.tokens = .ok p := by
  have hfields : problemShape.readFields p.tokens
      = .ok (⟨some p.typeUri, some p.title, some p.status, some p.detail⟩, []) := by
    simp only [Problem.tokens, Json.fieldTokens, List.cons_append, List.nil_append]
    refine (Json.Shape.readMembers_comma rfl rfl
      (Json.Field.run_of (Json.run_readString _ p.typeUri))).trans ?_
    refine (Json.Shape.readMembers_comma rfl rfl
      (Json.Field.run_of (Json.run_readString _ p.title))).trans ?_
    refine (Json.Shape.readMembers_comma rfl rfl
      (Json.Field.run_of (run_readCode h _))).trans ?_
    exact (Json.Shape.readMembers_close rfl rfl
      (Json.Field.run_of (Json.run_readString _ p.detail))).trans rfl
  rw [readProblem, Json.Shape.read, hfields]
  rfl

theorem isWritten_problem (p : Problem) : Json.IsWritten p.tokens := by
  have hstatus := Json.Number.isSpelled_ofInt p.status
  simp [Problem.tokens, Json.fieldTokens, Json.IsWritten, Json.Token.IsSpelled,
    Json.Token.isNumber, Json.Token.ofString, hstatus]

/-- The tokens of a body are told apart when they are written. -/
theorem Body.isWritten (b : Body) : Json.IsWritten b.tokens := by
  cases b with
  | empty => trivial
  | health =>
    simp [tokens, Json.fieldTokens, Json.IsWritten, Json.Token.IsSpelled, Json.Token.isNumber,
      Json.Token.ofString]
  | calculation c => exact Json.isWritten_calculationTokens c
  | calculations cs => exact Json.isWritten_calculationListTokens cs
  | problem p => exact isWritten_problem p

/-- **The bytes of a body are read back as its tokens.** -/
theorem Body.lexBytes_bytes (b : Body) : Json.lexBytes b.bytes = b.tokens := by
  rw [bytes, text, String.toList_ofList]
  exact Json.lexBytes_write b.isWritten

/-! ## 3. What an endpoint ends in -/

/-- What is read in the answer to an endpoint when it is a success: calculations as they are
written, which is as they are unless their dates lie in leap seconds within a minute. -/
def Endpoint.Succeeds (a : Response) : Endpoint → Prop
  | .health => a.status = 200 ∧ Json.lexBytes a.body.bytes
      = [.openObject, .ofString "status", .colon, .ofString "ok", .closeObject]
  | .history | .search _ => a.status = 200 ∧ ∃ cs, a.body = .calculations cs ∧ cs ≠ [] ∧
      readCalculations (Json.lexBytes a.body.bytes) = .ok (cs.map Calculation.asWritten)
  | .get _ | .update _ => a.status = 200 ∧ ∃ c, a.body = .calculation c ∧
      Json.readCalculation (Json.lexBytes a.body.bytes) = .ok c.asWritten
  | .create => a.status = 201 ∧ ∃ c, a.body = .calculation c ∧
      Json.readCalculation (Json.lexBytes a.body.bytes) = .ok c.asWritten
  | .delete _ => a.status = 204 ∧ a.body.bytes = []

/-- The status of an answer tells what is read in it: from 400 on, a problem of no type of its
own that names the same status, and below it what the endpoint is there for. -/
structure Enveloped (endpoint : Endpoint) (a : Response) : Prop where
  refused : 400 ≤ a.status → a.contentType = some "application/problem+json" ∧
    ∃ p : Problem, readProblem (Json.lexBytes a.body.bytes) = .ok p ∧
      p.typeUri = "about:blank" ∧ p.status = a.status
  succeeded : a.status < 400 → endpoint.Succeeds a

section Outcomes

variable {endpoint : Endpoint}

theorem enveloped_of_success {a : Response} (hstatus : a.status < 400)
    (h : endpoint.Succeeds a) : Enveloped endpoint a :=
  ⟨fun hrefused => absurd hrefused (Nat.not_le_of_lt hstatus), fun _ => h⟩

/-- A problem that is an error is read back under its own status. -/
theorem enveloped_problem {p : Problem} (h : p.IsError) : Enveloped endpoint (.problem p) := by
  have hstatus : (Response.problem p).status = p.status := h.sentStatus_eq
  constructor
  · intro _
    refine ⟨rfl, p, ?_, h.plain, hstatus.symm⟩
    have hhigh := h.high
    have htokens : Json.lexBytes (Response.problem p).body.bytes = p.tokens :=
      Body.lexBytes_bytes (.problem p)
    rw [htokens, readProblem_tokens (by omega)]
  · intro hlow
    rw [hstatus] at hlow
    exact absurd h.low (Nat.not_le_of_lt hlow)

/-- A use of the journal ends in a success or in the problem of a refusal. -/
theorem always_respond {α : Type} {success : α → Response} (j : Journal α)
    (h : ∀ a, Enveloped endpoint (success a)) :
    (respond success j).Always (Enveloped endpoint) := by
  refine Plan.always_map (Plan.always_of_forall (fun reply => ?_) j)
  cases reply with
  | ok a => exact h a
  | error e => exact enveloped_problem (isError_ofJournalError e)

theorem readCalculation_bytes (c : Calculation) :
    Json.readCalculation (Json.lexBytes (Body.calculation c).bytes) = .ok c.asWritten := by
  rw [Body.lexBytes_bytes]
  exact Json.readCalculation_tokens c

/-- A list that is not empty is read as it is written; an empty one is not there. -/
theorem enveloped_listResponse (detail : String) (cs : List Calculation)
    (h : ∀ a : Response, endpoint.Succeeds a ↔ a.status = 200 ∧ ∃ cs, a.body = .calculations cs ∧
      cs ≠ [] ∧ readCalculations (Json.lexBytes a.body.bytes)
        = .ok (cs.map Calculation.asWritten)) :
    Enveloped endpoint (listResponse detail cs) := by
  cases cs with
  | nil => exact enveloped_problem (isError_notFound detail)
  | cons c cs =>
    have hread : readCalculations (Json.lexBytes (Body.calculations (c :: cs)).bytes)
        = .ok ((c :: cs).map Calculation.asWritten) := by
      rw [Body.lexBytes_bytes]
      exact Json.readList_calculations (c :: cs)
    have hstatus : (listResponse detail (c :: cs)).status < 400 := (by decide : 200 < 400)
    exact enveloped_of_success hstatus ((h _).2 ⟨rfl, c :: cs, rfl, List.cons_ne_nil _ _, hread⟩)

end Outcomes

/-- **Whatever an endpoint ends in is read as its status says.** A fault of the request is
answered with its problem; else the journal is asked, and its reply is a success of this
endpoint or a refusal. -/
theorem Endpoint.always_enveloped (context : Context) (r : Request) (endpoint : Endpoint) :
    (endpoint.answer context r).Always (Enveloped endpoint) := by
  cases endpoint with
  | health =>
    exact enveloped_of_success (by decide : 200 < 400) ⟨rfl, Body.lexBytes_bytes .health⟩
  | history =>
    exact always_respond _ fun cs => enveloped_listResponse _ cs fun _ => Iff.rfl
  | search segment =>
    simp only [answer]
    cases hpredicate : readPredicate segment with
    | error p => exact enveloped_problem (isError_readPredicate hpredicate)
    | ok text => exact always_respond _ fun cs => enveloped_listResponse _ cs fun _ => Iff.rfl
  | get segment =>
    simp only [answer]
    cases hid : readId segment with
    | error p => exact enveloped_problem (isError_readId hid)
    | ok id =>
      exact always_respond _ fun c =>
        enveloped_of_success (by decide : 200 < 400) ⟨rfl, c, rfl, readCalculation_bytes c⟩
  | create =>
    simp only [answer]
    cases hbody : readBody Json.readRequest r with
    | error p => exact enveloped_problem (isError_readBody hbody)
    | ok expression =>
      exact always_respond _ fun c =>
        enveloped_of_success (by decide : 201 < 400) ⟨rfl, c, rfl, readCalculation_bytes c⟩
  | update segment =>
    simp only [answer]
    cases hid : readId segment with
    | error p => exact enveloped_problem (isError_readId hid)
    | ok id =>
      cases hbody : readBody Json.readCalculation r with
      | error p => exact enveloped_problem (isError_readBody hbody)
      | ok c =>
        exact always_respond _ fun c =>
          enveloped_of_success (by decide : 200 < 400) ⟨rfl, c, rfl, readCalculation_bytes c⟩
  | delete segment =>
    simp only [answer]
    cases hid : readId segment with
    | error p => exact enveloped_problem (isError_readId hid)
    | ok id =>
      exact always_respond _ fun _ => enveloped_of_success (by decide : 204 < 400) ⟨rfl, rfl⟩

/-! ## 4. Requests that take a route -/

/-- **Every error that a request can be answered with is a problem, and is read as one.** When a
request has taken a route and found an endpoint there, and does not ask for the head alone, then
whatever the limit and the time, and whatever is in the place of the store, the status of the
answer is 200, 201 or 204 and what the endpoint is there for is read in the body, or the status
is an error and a problem that names it is read there. -/
theorem answers_enveloped (context : Context) {r : Request} {route : Route} {endpoint : Endpoint}
    (hroute : Route.ofPath? (Target.path r.target.toList) = some route)
    (hendpoint : route.endpoint? r.method = some endpoint) (hhead : r.method ≠ "HEAD") :
    (∀ (b : Backend) (x : b.State), Enveloped endpoint ((answer context r).runOn b x).1) ∧
    ∀ repository : Repository, Enveloped endpoint ((answer context r).run repository).1 := by
  have halways := endpoint.always_enveloped context r
  rw [← answer_of_endpoint hroute hendpoint hhead] at halways
  exact ⟨halways.runOn, halways.run⟩

/-- An id that is no number is answered with a problem that says so, be there a store or not. -/
theorem answers_enveloped_abc :
    Route.ofPath? (Target.path (asking "/calculations/abc").target.toList)
      = some (.calculation ['a', 'b', 'c']) ∧
    (Route.calculation ['a', 'b', 'c']).endpoint? (asking "/calculations/abc").method
      = some (.get ['a', 'b', 'c']) ∧
    ∀ repository : Repository,
      ((answer oneMorning (asking "/calculations/abc")).run repository).1.status = 400 ∧
      ∃ p : Problem, readProblem (Json.lexBytes
        ((answer oneMorning (asking "/calculations/abc")).run repository).1.body.bytes) = .ok p ∧
        p.status = 400 := by
  have hroute : Route.ofPath? (Target.path (asking "/calculations/abc").target.toList)
      = some (.calculation ['a', 'b', 'c']) := by decide +kernel
  have hendpoint : (Route.calculation ['a', 'b', 'c']).endpoint?
      (asking "/calculations/abc").method = some (.get ['a', 'b', 'c']) := rfl
  refine ⟨hroute, hendpoint, fun repository => ?_⟩
  have henveloped := (answers_enveloped oneMorning hroute hendpoint (by decide)).2 repository
  have hstatus : ((answer oneMorning (asking "/calculations/abc")).run repository).1.status
      = 400 := by
    have hid : readId ['a', 'b', 'c'] = .error (notId ['a', 'b', 'c']) := rfl
    rw [answer_of_endpoint hroute hendpoint (by decide), Endpoint.answer, hid]
    rfl
  obtain ⟨-, p, hread, -, hp⟩ := henveloped.refused (Nat.le_of_eq hstatus.symm)
  exact ⟨hstatus, p, hread, by rw [hp, hstatus]⟩

end Http

end CalcJournal
