/-
CalcJournal.Proofs.Http.Status — a status tells what has become of the store.

A request may be turned away at each of the places that it passes: the routes, the
parameters, the content type, the body, the checks of the journal, and the store. Every
place answers with a status of 400 or more, and none of them is passed twice, so what is
left is what the endpoint does when the store has its say. `Endpoint.Does` lists it: one
write for each writing endpoint, a reading that leaves the store alone, and a refusal
that does so as well.

That something was written over cannot be told from the rows when it was written over by
its like. So `Overwritten` asks in addition that the store was asked for it
(`Plan.command?`). The main result is `status_tells_truth`.
-/
import CalcJournal.Http.Router
import CalcJournal.Proofs.Journal.Outcome

namespace CalcJournal

namespace Http

/-! ## 1. Refusals -/

/-- A response that turns a request away. -/
def Response.Refuses (a : Response) : Prop := 400 ≤ a.status

/-- A problem that has no type of its own and whose status is an error, of the client or of the
server. -/
structure Problem.IsError (p : Problem) : Prop where
  plain : p.typeUri = "about:blank"
  low : 400 ≤ p.status
  high : p.status < 600

theorem isError_of {status : Nat} (title detail : String) (low : 400 ≤ status)
    (high : status < 600) : (Problem.of status title detail).IsError :=
  ⟨rfl, low, high⟩

/-- An error is sent under the status that its problem names. -/
theorem Problem.IsError.sentStatus_eq {p : Problem} (h : p.IsError) : p.sentStatus = p.status := by
  have hstatus : isStatus p.status = true := by
    have hlow := h.low
    have hhigh := h.high
    simp only [isStatus, Bool.and_eq_true, decide_eq_true_eq]
    omega
  rw [sentStatus, if_pos hstatus]

/-- What is not there is an error. -/
theorem isError_notFound (detail : String) : (Problem.notFound detail).IsError :=
  isError_of _ _ (by decide) (by decide)

/-- Every refusal of the journal is an error. -/
theorem isError_ofJournalError (e : JournalError) : (Problem.ofJournalError e).IsError := by
  cases e with
  | parse => exact isError_of _ _ (by decide) (by decide)
  | idMismatch => exact isError_of _ _ (by decide) (by decide)
  | validation => exact isError_of _ _ (by decide) (by decide)
  | notFound => exact isError_notFound _
  | storage => exact isError_of _ _ (by decide) (by decide)

theorem isError_readId {segment : List Char} {p : Problem} (h : readId segment = .error p) :
    p.IsError := by
  unfold readId at h
  split at h
  · rw [← Except.error.inj h]
    exact isError_of _ _ (by decide) (by decide)
  · split at h
    · rw [← Except.error.inj h]
      exact isError_of _ _ (by decide) (by decide)
    · simp at h

theorem isError_readPredicate {segment : List Char} {p : Problem}
    (h : readPredicate segment = .error p) : p.IsError := by
  unfold readPredicate at h
  split at h
  · rw [← Except.error.inj h]
    exact isError_of _ _ (by decide) (by decide)
  · simp at h

theorem isError_bodyProblem (fault : Json.Fault) : (bodyProblem fault).IsError := by
  cases fault with
  | malformed => exact isError_of _ _ (by decide) (by decide)
  | mismatch => exact isError_of _ _ (by decide) (by decide)

theorem isError_readBody {α : Type} {read : List Json.Token → Except Json.Fault α}
    {r : Request} {p : Problem} (h : readBody read r = .error p) : p.IsError := by
  unfold readBody at h
  split at h
  · rw [← Except.error.inj h]
    exact isError_of _ _ (by decide) (by decide)
  · split at h
    · rw [← Except.error.inj h]
      exact isError_of _ _ (by decide) (by decide)
    · split at h
      · rw [← Except.error.inj h]
        exact isError_bodyProblem _
      · simp at h

/-- A problem that is an error turns the request away. -/
theorem refuses_problem {p : Problem} (h : p.IsError) : (Response.problem p).Refuses := by
  show 400 ≤ p.sentStatus
  rw [h.sentStatus_eq]
  exact h.low

/-! ## 2. What becomes of a store -/

/-- One row is new, under the id that the counter has moved on to. -/
def Inserted (s t : Store) : Prop :=
  ∃ row : Row, row.id.val = s.lastId + 1 ∧ t.rows = s.rows ++ [row] ∧
    (t.lastId : Int) = row.id.val

/-- There is a row of an id, and now the row of a calculation stands in its place. -/
def Replaced (s t : Store) (id : CalculationId) (c : Calculation) : Prop :=
  (∃ row ∈ s.rows, row.id = id) ∧
    t.rows = s.rows.map (fun q => if q.id = id then Row.ofCalculation c.cut else q) ∧
    t.lastId = s.lastId

/-- There is a row of an id, and now there is none. -/
def Erased (s t : Store) (id : CalculationId) : Prop :=
  (∃ row ∈ s.rows, row.id = id) ∧ t.rows = s.rows.filter (fun q => q.id ≠ id) ∧
    t.lastId = s.lastId

/-- A row under the id after the last moves the counter on to that id. -/
theorem inserted_push {s : Store} {c : Calculation} (hnext : s.nextId? = some c.id)
    (fresh : ∀ q ∈ s.rows, q.id ≠ c.row.id) : Inserted s (s.push c.row fresh) := by
  have hval := Store.val_of_nextId? hnext
  refine ⟨c.row, hval, rfl, ?_⟩
  show ((max s.lastId c.id.val.toNat : Nat) : Int) = c.id.val
  omega

/-- A row that is found under an id is there to be replaced or erased. -/
theorem exists_row {s : Store} {id : CalculationId} {row : Row} (h : s.row? id = some row) :
    ∃ row ∈ s.rows, row.id = id := by
  have hid := Store.id_of_row? h
  exact ⟨row, Store.mem_rows_iff.2 (by rw [hid, h]), hid⟩

section Sizes

variable {s t : Store} {id : CalculationId} {c : Calculation}

theorem Inserted.length (h : Inserted s t) : t.rows.length = s.rows.length + 1 := by
  obtain ⟨row, -, hrows, -⟩ := h
  simp [hrows]

theorem Replaced.length (h : Replaced s t id c) : t.rows.length = s.rows.length := by
  obtain ⟨-, hrows, -⟩ := h
  simp [hrows]

theorem Erased.length (h : Erased s t id) : t.rows.length < s.rows.length := by
  obtain ⟨⟨row, hrow, hid⟩, hrows, -⟩ := h
  rw [hrows]
  exact List.length_filter_lt_length_iff_exists.2 ⟨row, hrow, by simp [hid]⟩

end Sizes

/-! ## 3. What an endpoint does -/

/-- The endpoints that only read. -/
def Endpoint.isRead : Endpoint → Bool
  | .health | .history | .search _ | .get _ => true
  | .create | .update _ | .delete _ => false

/-- What an endpoint may answer and leave, asked by a request on a store that works. -/
inductive Endpoint.Does (context : Context) (r : Request) (s : Store) :
    Endpoint → Nat → Store → Prop
  | inserted {t : Store} (h : Inserted s t) : Does context r s .create 201 t
  | replaced {t : Store} {segment : List Char} {id : CalculationId} {c : Calculation}
      (hid : readId segment = .ok id) (hbody : readBody Json.readCalculation r = .ok c)
      (hsame : c.id = id)
      (hasked : ((Endpoint.update segment).answer context r).command? = some (.update c))
      (h : Replaced s t id c) : Does context r s (.update segment) 200 t
  | erased {t : Store} {segment : List Char} {id : CalculationId}
      (hid : readId segment = .ok id) (h : Erased s t id) :
      Does context r s (.delete segment) 204 t
  | read {endpoint : Endpoint} (h : endpoint.isRead = true)
      (hasked : ∀ c, (endpoint.answer context r).command? ≠ some (.update c)) :
      Does context r s endpoint 200 s
  | refused {endpoint : Endpoint} {status : Nat} (h : 400 ≤ status)
      (hasked : ∀ c, (endpoint.answer context r).command? = some (.update c) →
        s.row? c.id = none) : Does context r s endpoint status s

/-! ## 4. Each endpoint does what it may -/

section Answers

variable {α : Type} {success : α → Response} {j : Journal α} {repository : Repository}

/-- The answer of a journal is what it is turned into, and the store is the journal's. -/
theorem run_respond (success : α → Response) (j : Journal α) (repository : Repository) :
    (respond success j).run repository =
      (match (j.run repository).1 with
        | .ok a => success a
        | .error e => .problem (.ofJournalError e), (j.run repository).2) :=
  Plan.run_map _ j repository

/-- A journal that refuses is a refusal. -/
theorem refuses_respond {e : JournalError} (h : (j.run repository).1 = .error e) :
    ((respond success j).run repository).1.Refuses := by
  rw [run_respond, h]
  exact refuses_problem (isError_ofJournalError e)

/-- A list is sent, unless it is empty. -/
theorem status_listResponse (detail : String) (cs : List Calculation) :
    (listResponse detail cs).status = 200 ∨ (listResponse detail cs).Refuses := by
  cases cs with
  | nil => exact .inr (refuses_problem (isError_notFound detail))
  | cons c cs => exact .inl rfl

end Answers

namespace Endpoint

variable (context : Context) (r : Request) (s : Store)

/-- What an endpoint does, as a property of the endpoint. -/
def Truthful (endpoint : Endpoint) : Prop :=
  ∃ t, ((endpoint.answer context r).run (.working s)).2 = .working t ∧
    Does context r s endpoint ((endpoint.answer context r).run (.working s)).1.status t

variable {context r s}

/-- An expression is filed and answered, or it is refused and nothing changes. -/
theorem create_outcome :
    (∃ (c : Calculation) (fresh : ∀ q ∈ s.rows, q.id ≠ c.row.id), s.nextId? = some c.id ∧
      (create.answer context r).run (.working s)
        = (createdResponse c.cut, .working (s.push c.row fresh))) ∨
    ∃ a : Response, a.Refuses ∧ (create.answer context r).run (.working s) = (a, .working s) := by
  cases hbody : readBody Json.readRequest r with
  | error p =>
    refine .inr ⟨.problem p, refuses_problem (isError_readBody hbody), ?_⟩
    rw [answer, hbody]
    rfl
  | ok expression =>
    have hanswer : create.answer context r
        = respond createdResponse (Journal.create context.limit context.now expression) := by
      rw [answer, hbody]
    rw [hanswer, run_respond]
    rcases Journal.create_outcome context.limit context.now expression s with
      ⟨c, fresh, hnext, -, -, -, -, hrun⟩ | ⟨e, hrun⟩
    · rw [hrun]
      exact .inl ⟨c, fresh, hnext, rfl⟩
    · rw [hrun]
      exact .inr ⟨_, refuses_problem (isError_ofJournalError e), rfl⟩

/-- Filing an expression asks for nothing to be written over. -/
theorem command?_create (c : Calculation) :
    (create.answer context r).command? ≠ some (.update c) := by
  rw [answer]
  cases readBody Json.readRequest r with
  | error p => simp [Plan.command?]
  | ok expression =>
    simp only [respond, Plan.command?_map, Journal.create]
    cases Journal.assess context.limit expression <;> simp [Journal.relay, Plan.command?]

/-- An update asks for nothing, or for the calculation of the body to be written over the one
of the path. -/
theorem command?_update {segment : List Char} {d : Command}
    (h : ((update segment).answer context r).command? = some d) :
    ∃ c, readId segment = .ok c.id ∧ readBody Json.readCalculation r = .ok c ∧
      d = .update c := by
  rw [answer] at h
  cases hid : readId segment with
  | error p => simp [hid, Plan.command?] at h
  | ok id =>
    cases hbody : readBody Json.readCalculation r with
    | error p => simp [hid, hbody, Plan.command?] at h
    | ok c =>
      simp only [hid, hbody, respond, Plan.command?_map] at h
      obtain ⟨rfl, rfl⟩ := Journal.command?_update h
      exact ⟨c, rfl, rfl, rfl⟩

/-- A deletion asks for nothing, or for the calculation of the path to be deleted. -/
theorem command?_delete {segment : List Char} {d : Command}
    (h : ((delete segment).answer context r).command? = some d) :
    ∃ id, readId segment = .ok id ∧ d = .delete id := by
  rw [answer] at h
  cases hid : readId segment with
  | error p => simp [hid, Plan.command?] at h
  | ok id =>
    simp only [hid, respond, Plan.command?_map] at h
    exact ⟨id, rfl, (Option.some.inj h).symm⟩

/-- A calculation is written over the one of the path and answered, or it is refused and
nothing changes. Once the store has been asked, only the want of a row is in the way. -/
theorem update_outcome (segment : List Char) :
    (∃ (c : Calculation) (row : Row), readId segment = .ok c.id ∧
      readBody Json.readCalculation r = .ok c ∧ s.row? c.id = some row ∧
      ((update segment).answer context r).command? = some (.update c) ∧
      ((update segment).answer context r).run (.working s)
        = (.json 200 (.calculation c.cut), .working (s.replace c.row))) ∨
    ∃ a : Response, a.Refuses ∧
      ((update segment).answer context r).run (.working s) = (a, .working s) ∧
      ∀ c, ((update segment).answer context r).command? = some (.update c) →
        s.row? c.id = none := by
  cases hid : readId segment with
  | error p =>
    rw [answer, hid]
    exact .inr ⟨.problem p, refuses_problem (isError_readId hid), rfl, by simp [Plan.command?]⟩
  | ok id =>
    cases hbody : readBody Json.readCalculation r with
    | error p =>
      rw [answer, hid, hbody]
      have hrefuses := refuses_problem (isError_readBody hbody)
      exact .inr ⟨.problem p, hrefuses, rfl, by simp [Plan.command?]⟩
    | ok c =>
      have hanswer : (update segment).answer context r
          = respond (fun c => .json 200 (.calculation c))
            (Journal.update context.limit id c) := by
        rw [answer, hid, hbody]
      rw [hanswer, run_respond, respond, Plan.command?_map]
      rcases Journal.update_outcome context.limit id c s with
        ⟨row, rfl, hrow, hasked, hrun⟩ | ⟨e, hrun, hasked⟩
      · rw [hrun]
        exact .inl ⟨c, row, rfl, rfl, hrow, hasked, rfl⟩
      · rw [hrun]
        exact .inr ⟨_, refuses_problem (isError_ofJournalError e), rfl, hasked⟩

theorem truthful_of_refusal {endpoint : Endpoint} {a : Response}
    (h : endpoint.answer context r = .answer a) (hrefuses : a.Refuses) :
    endpoint.Truthful context r s := by
  rw [Truthful, h]
  refine ⟨s, rfl, .refused hrefuses ?_⟩
  intro c hc
  rw [h] at hc
  simp [Plan.command?] at hc

section Uses

variable {endpoint : Endpoint} {α : Type} {success : α → Response} {j : Journal α}

theorem truthful_of_ok {a : α} {t : Store}
    (hanswer : endpoint.answer context r = respond success j)
    (hrun : j.run (.working s) = (.ok a, .working t))
    (hdoes : Does context r s endpoint (success a).status t) :
    endpoint.Truthful context r s := by
  rw [Truthful, hanswer, run_respond, hrun]
  exact ⟨t, rfl, hdoes⟩

theorem truthful_of_error {e : JournalError}
    (hanswer : endpoint.answer context r = respond success j)
    (hrun : j.run (.working s) = (.error e, .working s))
    (hasked : ∀ c, j.command? = some (.update c) → s.row? c.id = none) :
    endpoint.Truthful context r s := by
  rw [Truthful, hanswer]
  refine ⟨s, ?_, .refused (refuses_respond (congrArg Prod.fst hrun)) ?_⟩
  · rw [run_respond, hrun]
  · rw [hanswer, respond, Plan.command?_map]
    exact hasked

theorem truthful_of_read (hread : endpoint.isRead = true)
    (hanswer : endpoint.answer context r = respond success j)
    (hstore : (j.run (.working s)).2 = .working s)
    (hasked : ∀ c, j.command? ≠ some (.update c))
    (hsuccess : ∀ a, (success a).status = 200 ∨ (success a).Refuses) :
    endpoint.Truthful context r s := by
  have hcommand : (endpoint.answer context r).command? = j.command? := by
    rw [hanswer, respond, Plan.command?_map]
  cases hreply : (j.run (.working s)).1 with
  | error e =>
    exact truthful_of_error hanswer (Prod.ext hreply hstore) fun c hc => absurd hc (hasked c)
  | ok a =>
    refine truthful_of_ok hanswer (Prod.ext hreply hstore) ?_
    rcases hsuccess a with h200 | hrefuses
    · rw [h200]
      exact .read hread fun c => hcommand ▸ hasked c
    · exact .refused hrefuses fun c hc => absurd (hcommand ▸ hc) (hasked c)

end Uses

theorem truthful_health : health.Truthful context r s :=
  ⟨s, rfl, .read rfl (by simp [answer, Plan.command?])⟩

theorem truthful_history : history.Truthful context r s :=
  truthful_of_read rfl rfl rfl (by simp [Journal.history, Journal.relay, Plan.command?])
    (status_listResponse _)

theorem truthful_search (segment : List Char) : (search segment).Truthful context r s := by
  cases hpredicate : readPredicate segment with
  | error p =>
    exact truthful_of_refusal (by rw [answer, hpredicate])
      (refuses_problem (isError_readPredicate hpredicate))
  | ok text =>
    exact truthful_of_read rfl (by rw [answer, hpredicate]) rfl
      (by simp [Journal.search, Journal.relay, Plan.command?]) (status_listResponse _)

theorem truthful_get (segment : List Char) : (get segment).Truthful context r s := by
  cases hid : readId segment with
  | error p =>
    exact truthful_of_refusal (by rw [answer, hid]) (refuses_problem (isError_readId hid))
  | ok id =>
    exact truthful_of_read rfl (by rw [answer, hid]) rfl
      (by simp [Journal.get, Plan.command?]) fun _ => .inl rfl

theorem truthful_create : create.Truthful context r s := by
  rcases @create_outcome context r s with ⟨c, fresh, hnext, hrun⟩ | ⟨a, hrefuses, hrun⟩
  · rw [Truthful, hrun]
    exact ⟨_, rfl, .inserted (inserted_push hnext fresh)⟩
  · rw [Truthful, hrun]
    exact ⟨s, rfl, .refused hrefuses fun c hc => absurd hc (command?_create c)⟩

theorem truthful_update (segment : List Char) : (update segment).Truthful context r s := by
  rcases @update_outcome context r s segment with
    ⟨c, row, hid, hbody, hrow, hcommand, hrun⟩ | ⟨a, hrefuses, hrun, hasked⟩
  · rw [Truthful, hrun]
    exact ⟨_, rfl, .replaced hid hbody rfl hcommand ⟨exists_row hrow, rfl, rfl⟩⟩
  · rw [Truthful, hrun]
    exact ⟨s, rfl, .refused hrefuses hasked⟩

theorem truthful_delete (segment : List Char) : (delete segment).Truthful context r s := by
  cases hid : readId segment with
  | error p =>
    exact truthful_of_refusal (by rw [answer, hid]) (refuses_problem (isError_readId hid))
  | ok id =>
    have hanswer : (delete segment).answer context r
        = respond (fun _ => .bare 204) (Journal.delete id) := by
      rw [answer, hid]
    rcases Journal.delete_outcome id s with ⟨row, hrow, hrun⟩ | ⟨e, hrun⟩
    · exact truthful_of_ok hanswer hrun (.erased hid ⟨exists_row hrow, rfl, rfl⟩)
    · refine truthful_of_error hanswer hrun ?_
      simp [Journal.delete, Journal.relay, Plan.command?]

/-- Every endpoint does what it may, and its status says what that was. -/
theorem truthful (endpoint : Endpoint) : endpoint.Truthful context r s := by
  cases endpoint with
  | health => exact truthful_health
  | history => exact truthful_history
  | search segment => exact truthful_search segment
  | get segment => exact truthful_get segment
  | create => exact truthful_create
  | update segment => exact truthful_update segment
  | delete segment => exact truthful_delete segment

/-- On a repository that fails, only what never asks it is not turned away. -/
theorem failing (endpoint : Endpoint) (e : StoreError) :
    (endpoint = .health ∧ ((endpoint.answer context r).run (.failing e)).1.status = 200) ∨
      ((endpoint.answer context r).run (.failing e)).1.Refuses := by
  cases endpoint with
  | health => exact .inl ⟨rfl, rfl⟩
  | history => exact .inr (refuses_respond rfl)
  | search segment =>
    right
    rw [answer]
    cases hpredicate : readPredicate segment with
    | error p => exact refuses_problem (isError_readPredicate hpredicate)
    | ok text => exact refuses_respond rfl
  | get segment =>
    right
    rw [answer]
    cases hid : readId segment with
    | error p => exact refuses_problem (isError_readId hid)
    | ok id => exact refuses_respond rfl
  | create =>
    right
    rw [answer]
    cases hbody : readBody Json.readRequest r with
    | error p => exact refuses_problem (isError_readBody hbody)
    | ok expression =>
      simp only [Journal.create]
      cases Journal.assess context.limit expression with
      | error e => exact refuses_respond rfl
      | ok draft => exact refuses_respond rfl
  | update segment =>
    right
    rw [answer]
    cases hid : readId segment with
    | error p => exact refuses_problem (isError_readId hid)
    | ok id =>
      cases hbody : readBody Json.readCalculation r with
      | error p => exact refuses_problem (isError_readBody hbody)
      | ok c =>
        simp only [Journal.update]
        cases Journal.objection? context.limit id c with
        | some e => exact refuses_respond rfl
        | none => exact refuses_respond rfl
  | delete segment =>
    right
    rw [answer]
    cases hid : readId segment with
    | error p => exact refuses_problem (isError_readId hid)
    | ok id => exact refuses_respond rfl

end Endpoint

/-! ## 5. Requests -/

/-- The id that the path of a request names, if it names one. -/
def Request.pathId? (r : Request) : Option CalculationId :=
  match Route.ofPath? (Target.path r.target.toList) with
  | some (.calculation segment) => (readId segment).toOption
  | _ => none

theorem Request.pathId?_of_readId {r : Request} {segment : List Char} {id : CalculationId}
    (hroute : Route.ofPath? (Target.path r.target.toList) = some (.calculation segment))
    (hid : readId segment = .ok id) : r.pathId? = some id := by
  rw [pathId?, hroute]
  simp only [hid]
  rfl

theorem Request.readId_of_pathId? {r : Request} {id : CalculationId} (h : r.pathId? = some id) :
    ∃ segment, Route.ofPath? (Target.path r.target.toList) = some (.calculation segment) ∧
      readId segment = .ok id := by
  unfold pathId? at h
  split at h
  case h_1 segment hroute =>
    refine ⟨segment, hroute, ?_⟩
    cases hread : readId segment with
    | error p =>
      rw [hread] at h
      simp [Except.toOption] at h
    | ok id' =>
      rw [hread] at h
      rw [Option.some.inj h]
  case h_2 => simp at h

/-- To put something under an id is to ask for it to be written over. -/
theorem endpoint?_put {route : Route} {endpoint : Endpoint}
    (h : route.endpoint? "PUT" = some endpoint) : ∃ segment, endpoint = .update segment := by
  cases route <;> simp [Route.endpoint?] at h
  exact ⟨_, h.symm⟩

/-- What is written over is put under the id of the path. -/
theorem endpoint?_update {route : Route} {method : String} {segment : List Char}
    (h : route.endpoint? method = some (.update segment)) :
    method = "PUT" ∧ route = .calculation segment := by
  cases route <;> simp [Route.endpoint?] at h
  split at h
  · simp at h
  · split at h
    · rename_i hput
      refine ⟨hput, ?_⟩
      simpa using h
    · split at h <;> simp at h

/-- What is deleted stands under the id of the path. -/
theorem endpoint?_delete {route : Route} {method : String} {segment : List Char}
    (h : route.endpoint? method = some (.delete segment)) : route = .calculation segment := by
  cases route <;> simp [Route.endpoint?] at h
  split at h
  · simp at h
  · split at h
    · simp at h
    · split at h
      · simpa using h
      · simp at h

/-- A request takes no route, or its endpoint is asked; a request for the head differs in
the body alone. -/
theorem answer_cases (context : Context) (r : Request) :
    (∃ a : Response, answer context r = .answer a ∧ a.Refuses) ∨
    ∃ route endpoint, Route.ofPath? (Target.path r.target.toList) = some route ∧
      route.endpoint? r.method = some endpoint ∧
      (answer context r).command? = (endpoint.answer context r).command? ∧
      ∀ repository, ((answer context r).run repository).1.status
          = ((endpoint.answer context r).run repository).1.status ∧
        ((answer context r).run repository).2 = ((endpoint.answer context r).run repository).2 := by
  unfold answer
  split
  case h_1 => exact .inl ⟨_, rfl, Nat.le_add_right 400 4⟩
  case h_2 route hroute =>
    split
    case h_1 => exact .inl ⟨_, rfl, Nat.le_add_right 400 5⟩
    case h_2 endpoint hendpoint =>
      refine .inr ⟨route, endpoint, hroute, hendpoint, ?_⟩
      dsimp only
      split
      · exact ⟨Plan.command?_map _ _, fun repository => by simp [Response.withoutBody]⟩
      · exact ⟨rfl, fun _ => ⟨rfl, rfl⟩⟩

/-- The store was asked to write the calculation of the body over the row of the path's id,
and it did, cut to microseconds, and changed nothing else. -/
def Overwritten (context : Context) (r : Request) (s t : Store) : Prop :=
  ∃ id c, r.pathId? = some id ∧ readBody Json.readCalculation r = .ok c ∧ c.id = id ∧
    (answer context r).command? = some (.update c) ∧ Replaced s t id c

/-- The row of the path's id was removed, and nothing else was changed. -/
def Removed (r : Request) (s t : Store) : Prop :=
  ∃ id, r.pathId? = some id ∧ Erased s t id

/-- A status tells what has become of a store. -/
structure TellsTruth (context : Context) (r : Request) (s : Store) (status : Nat)
    (t : Store) : Prop where
  inserted : status = 201 ↔ Inserted s t
  overwritten : r.method = "PUT" ∧ status = 200 ↔ Overwritten context r s t
  removed : status = 204 ↔ Removed r s t
  otherwise : status ≠ 201 → ¬ (r.method = "PUT" ∧ status = 200) → status ≠ 204 → t = s

/-- A store that is left as it was is told by any other status. -/
theorem tellsTruth_of_unchanged {context : Context} {r : Request} {s : Store} {status : Nat}
    (h201 : status ≠ 201) (h204 : status ≠ 204) (hput : ¬ (r.method = "PUT" ∧ status = 200))
    (hnot : ¬ Overwritten context r s s) : TellsTruth context r s status s where
  inserted := by
    refine ⟨fun h => absurd h h201, fun h => ?_⟩
    have := h.length
    omega
  overwritten := ⟨fun h => absurd h hput, fun h => absurd h hnot⟩
  removed := by
    refine ⟨fun h => absurd h h204, fun ⟨id, _, h⟩ => ?_⟩
    have := h.length
    omega
  otherwise := fun _ _ _ => rfl

/-- What an endpoint does is told by its status, when the request has come to it. -/
theorem tellsTruth_of_does {context : Context} {r : Request} {s t : Store} {status : Nat}
    {route : Route} {endpoint : Endpoint}
    (hroute : Route.ofPath? (Target.path r.target.toList) = some route)
    (hendpoint : route.endpoint? r.method = some endpoint)
    (hcommand : (answer context r).command? = (endpoint.answer context r).command?)
    (h : endpoint.Does context r s status t) : TellsTruth context r s status t := by
  cases h with
  | inserted hinserted =>
    -- the number of rows tells the three writes apart
    have hlength := hinserted.length
    refine ⟨⟨fun _ => hinserted, fun _ => rfl⟩, ⟨fun h => by simp at h, ?_⟩,
      ⟨fun h => by simp at h, ?_⟩, fun h => absurd rfl h⟩
    · rintro ⟨id, c, -, -, -, -, hreplaced⟩
      have := hreplaced.length
      omega
    · rintro ⟨id, -, herased⟩
      have := herased.length
      omega
  | replaced hid hbody hsame hasked hreplaced =>
    have hlength := hreplaced.length
    obtain ⟨hput, rfl⟩ := endpoint?_update hendpoint
    refine ⟨⟨fun h => by simp at h, fun hinserted => ?_⟩, ⟨fun _ => ?_, fun _ => ⟨hput, rfl⟩⟩,
      ⟨fun h => by simp at h, ?_⟩, fun _ h => absurd ⟨hput, rfl⟩ h⟩
    · have := hinserted.length
      omega
    · exact ⟨_, _, Request.pathId?_of_readId hroute hid, hbody, hsame, hcommand.trans hasked,
        hreplaced⟩
    · rintro ⟨id, -, herased⟩
      have := herased.length
      omega
  | erased hid herased =>
    have hlength := herased.length
    obtain rfl := endpoint?_delete hendpoint
    refine ⟨⟨fun h => by simp at h, fun hinserted => ?_⟩, ⟨fun h => by simp at h, ?_⟩,
      ⟨fun _ => ⟨_, Request.pathId?_of_readId hroute hid, herased⟩, fun _ => rfl⟩,
      fun _ _ h => absurd rfl h⟩
    · have := hinserted.length
      omega
    · rintro ⟨id, c, -, -, -, -, hreplaced⟩
      have := hreplaced.length
      omega
  | read hread hasked =>
    refine tellsTruth_of_unchanged (by decide) (by decide) ?_ ?_
    · -- a PUT never comes to an endpoint that only reads
      rintro ⟨hput, -⟩
      rw [hput] at hendpoint
      obtain ⟨segment, rfl⟩ := endpoint?_put hendpoint
      simp [Endpoint.isRead] at hread
    · rintro ⟨id, c, -, -, -, hupdate, -⟩
      exact hasked c (hcommand ▸ hupdate)
  | refused hstatus hasked =>
    -- an update that was asked for and refused had no row to write over
    refine tellsTruth_of_unchanged (by omega) (by omega) (fun h => by omega) ?_
    rintro ⟨id, c, -, -, rfl, hupdate, ⟨row, hrow, hid⟩, -⟩
    exact Store.row?_eq_none_iff.1 (hasked c (hcommand ▸ hupdate)) row hrow hid

/-- **The status tells the truth about the store.** A request that is answered with 201 is
one after which there is one more row, a PUT with 200 one that has written its body over the
row of its path's id, and a 204 one that has removed that row, and in each case nothing else
has changed; with any other answer, rows and counter are as they were. A repository that
fails stays as it is, and no answer says otherwise. -/
theorem status_tells_truth (context : Context) (r : Request) :
    (∀ s : Store, ∃ t : Store, ((answer context r).run (.working s)).2 = .working t ∧
      TellsTruth context r s ((answer context r).run (.working s)).1.status t) ∧
    ∀ e : StoreError, ((answer context r).run (.failing e)).2 = .failing e ∧
      ((answer context r).run (.failing e)).1.status ≠ 201 ∧
      ¬ (r.method = "PUT" ∧ ((answer context r).run (.failing e)).1.status = 200) ∧
      ((answer context r).run (.failing e)).1.status ≠ 204 := by
  rcases answer_cases context r with ⟨a, hanswer, hrefuses⟩ |
    ⟨route, endpoint, hroute, hendpoint, hcommand, hsame⟩
  · have hstatus : 400 ≤ a.status := hrefuses
    rw [hanswer]
    refine ⟨fun s => ⟨s, rfl, ?_⟩, fun e => ⟨rfl, ?_⟩⟩
    · refine tellsTruth_of_unchanged ?_ ?_ ?_ ?_
      · show a.status ≠ 201
        omega
      · show a.status ≠ 204
        omega
      · rintro ⟨-, h200⟩
        have : a.status = 200 := h200
        omega
      · rintro ⟨id, c, -, -, -, hupdate, -⟩
        rw [hanswer] at hupdate
        simp [Plan.command?] at hupdate
    · show a.status ≠ 201 ∧ ¬ (r.method = "PUT" ∧ a.status = 200) ∧ a.status ≠ 204
      omega
  · refine ⟨fun s => ?_, fun e => ⟨Plan.run_failing _ e, ?_⟩⟩
    · obtain ⟨t, hstore, hdoes⟩ := @Endpoint.truthful context r s endpoint
      refine ⟨t, by rw [(hsame _).2, hstore], ?_⟩
      rw [(hsame _).1]
      exact tellsTruth_of_does hroute hendpoint hcommand hdoes
    · rw [(hsame _).1]
      rcases @Endpoint.failing context r endpoint e with ⟨rfl, h200⟩ | hrefuses
      · refine ⟨by omega, ?_, by omega⟩
        rintro ⟨hput, -⟩
        rw [hput] at hendpoint
        obtain ⟨segment, hsegment⟩ := endpoint?_put hendpoint
        simp at hsegment
      · have hstatus : 400 ≤ ((endpoint.answer context r).run (.failing e)).1.status := hrefuses
        omega

end Http

end CalcJournal
