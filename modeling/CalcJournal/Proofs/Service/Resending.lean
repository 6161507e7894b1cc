/-
CalcJournal.Proofs.Service.Resending — what is sent once more, and what is sent back.

An update asks for the same thing at all times, and to write a row over itself changes
nothing. So a PUT that is sent twice is answered alike both times, and leaves what it left at
first.

What a GET shows of a calculation is what its row is read as. The row was made of a calculation
whose expression was admitted, and all that the columns lose was lost when it was written; so
what is shown has that very row (`Row.row_kept`). It is read back from its JSON as what it is
(`Request.Returns.readBody`), since a date that a row shows is written as it is. When it is put
back, the row is written over itself.
-/
import CalcJournal.Proofs.Http.Intake
import CalcJournal.Proofs.Service.Provenance
import CalcJournal.Proofs.Service.Search
import CalcJournal.Proofs.Store.Rewriting

namespace CalcJournal

/-! ## 1. What is done twice -/

/-- To write a calculation over another one once more changes nothing, and gets the same reply. -/
theorem Store.perform_update_twice (s : Store) (c : Calculation) :
    (s.perform (.update c)).2.perform (.update c) = s.perform (.update c) := by
  show (s.update c).2.update c = s.update c
  rw [update_eq s c, update_eq, replace_replace, row?_replace, Calculation.row_id, if_pos rfl]
  cases s.row? c.id <;> rfl

/-- A plan can be carried out twice when the command that it asks can. -/
theorem Plan.run_twice {α : Type} {p : Plan α}
    (h : ∀ c, p.command? = some c → ∀ s : Store, (s.perform c).2.perform c = s.perform c)
    (repository : Repository) : p.run (p.run repository).2 = p.run repository := by
  cases p with
  | answer a => rfl
  | ask c next =>
    cases repository with
    | failing e => rfl
    | working s =>
      have htwice := h c rfl s
      simp only [run, Repository.perform, htwice]

/-- A calculation whose row is there already is written over itself. -/
theorem Store.update_of_row? {s : Store} {c : Calculation} (h : s.row? c.id = some c.row) :
    s.update c = (.ok c.cut, s) := by
  have hsame : ∀ q ∈ s.rows, q.id = c.row.id → q = c.row := by
    intro q hq hid
    have hrow := mem_rows_iff.1 hq
    rw [hid, Calculation.row_id, h] at hrow
    exact (Option.some.inj hrow).symm
  rw [update_eq, h, replace_eq_self hsame]

namespace Http

/-! ## 2. Requests that are sent twice -/

section Twice

variable {limit : Nat} {r : Request}

/-- What a PUT asks for does not depend on the clock. -/
theorem answer_put_congr (hmethod : r.method = "PUT") (now later : Instant) :
    answer ⟨limit, now⟩ r = answer ⟨limit, later⟩ r := by
  cases hroute : Route.ofPath? (Target.path r.target.toList) with
  | none => simp only [answer, hroute]
  | some route =>
    cases hendpoint : route.endpoint? r.method with
    | none => simp only [answer, hroute, hendpoint]
    | some endpoint =>
      obtain ⟨segment, rfl⟩ := endpoint?_put (hmethod ▸ hendpoint)
      simp only [answer, hroute, hendpoint]
      rfl

/-- A PUT asks for nothing, or for a calculation to be written over another one. -/
theorem command?_put {context : Context} (hmethod : r.method = "PUT") {d : Command}
    (h : (answer context r).command? = some d) : ∃ c, d = .update c := by
  rcases @answer_of_put context r hmethod with ⟨a, hanswer, -⟩ | ⟨segment, -, hanswer⟩
  · rw [hanswer] at h
    simp [Plan.command?] at h
  · rw [hanswer] at h
    obtain ⟨c, -, -, rfl⟩ := Endpoint.command?_update h
    exact ⟨c, rfl⟩

/-- **A PUT that is sent again is answered alike, and leaves what was left.** -/
theorem run_put_twice (hmethod : r.method = "PUT") (now later : Instant)
    (repository : Repository) :
    (answer ⟨limit, later⟩ r).run ((answer ⟨limit, now⟩ r).run repository).2
      = (answer ⟨limit, now⟩ r).run repository := by
  rw [answer_put_congr hmethod later now]
  refine Plan.run_twice (fun d hd s => ?_) repository
  obtain ⟨c, rfl⟩ := command?_put hmethod hd
  exact s.perform_update_twice c

end Twice

/-! ## 3. What is shown -/

/-- An answer shows a calculation: it is the one that was asked for, or one of a list. -/
def Response.Shows (a : Response) (c : Calculation) : Prop :=
  a.status = 200 ∧ (a.body = .calculation c ∨ ∃ cs, a.body = .calculations cs ∧ c ∈ cs)

/-- An item is written in an array as it is written alone. -/
theorem occurs_separated {item : List Json.Token} {items : List (List Json.Token)}
    (h : item ∈ items) :
    ∃ before behind, Json.separated items = before ++ item ++ behind := by
  fun_induction Json.separated items with
  | case1 => simp at h
  | case2 only =>
    obtain rfl := List.mem_singleton.1 h
    exact ⟨[], [], by simp⟩
  | case3 first items _ ih =>
    rcases List.mem_cons.1 h with rfl | h
    · exact ⟨[], .comma :: Json.separated items, rfl⟩
    · obtain ⟨before, behind, heq⟩ := ih h
      exact ⟨first ++ .comma :: before, behind, by simp [heq]⟩

/-- The text of what is shown is part of the text of the answer. -/
theorem Response.Shows.occurs {a : Response} {c : Calculation} (h : a.Shows c) :
    Text.Occurs (Body.calculation c).text a.body.text := by
  obtain ⟨-, hbody | ⟨cs, hbody, hc⟩⟩ := h
  · rw [hbody]
    exact ⟨[], [], by simp⟩
  · obtain ⟨before, behind, heq⟩ :=
      occurs_separated (List.mem_map_of_mem (f := Json.calculationTokens) hc)
    have htokens : (Body.calculations cs).tokens
        = (.openArray :: before) ++ (Body.calculation c).tokens ++ (behind ++ [.closeArray]) := by
      simp only [Body.tokens, Json.calculationListTokens, heq, List.cons_append, List.append_assoc]
    refine ⟨Json.write (.openArray :: before), Json.write (behind ++ [.closeArray]), ?_⟩
    simp only [hbody, Body.text, String.toList_ofList, htokens, Json.write, List.flatMap_append]

section Showing

variable {context : Context} {g : Request} {s : Store} {c : Calculation}

/-- A GET asks an endpoint that reads. -/
theorem endpoint?_get {route : Route} {endpoint : Endpoint}
    (h : route.endpoint? "GET" = some endpoint) : endpoint.isRead = true := by
  cases route <;> simp [Route.endpoint?] at h <;> rw [← h] <;> rfl

/-- What a list shows is what a row is read as. -/
theorem toCalculation_of_shows_list {detail : String} {p : Row → Bool}
    {j : Journal (List Calculation)}
    (hreadable : ∀ r ∈ s.rows, ∃ c, r.toCalculation = .ok c)
    (hj : (j.run (.working s)).1
      = ((s.listing p).mapM Row.toCalculation).mapError JournalError.ofStoreError)
    (h : ((respond (listResponse detail) j).run (.working s)).1.Shows c) :
    ∃ r ∈ s.rows, r.toCalculation = .ok c := by
  obtain ⟨cs, hread, -, hmem⟩ := Store.read_listing hreadable p
  rw [run_respond, hj, hread] at h
  obtain ⟨hstatus, hbody⟩ := h
  cases cs with
  | nil => exact absurd hstatus (by decide : (404 : Nat) ≠ 200)
  | cons d cs =>
    have hc : c ∈ d :: cs := by
      rcases hbody with hbody | ⟨ds, hbody, hc⟩
      · have hbody : Body.calculations (d :: cs) = .calculation c := hbody
        simp at hbody
      · rw [Body.calculations.inj hbody]
        exact hc
    obtain ⟨r, hr, -, hcalculation⟩ := (hmem c).1 hc
    exact ⟨r, hr, hcalculation⟩

/-- What is shown under an id is what its row is read as. -/
theorem toCalculation_of_shows_get {id : CalculationId}
    (h : ((respond (fun c => .json 200 (.calculation c)) (Journal.get id)).run
      (.working s)).1.Shows c) : ∃ r ∈ s.rows, r.toCalculation = .ok c := by
  have hfound : ((Journal.get id).run (.working s)).1 = .ok c := by
    rw [run_respond] at h
    cases hget : ((Journal.get id).run (.working s)).1 with
    | error e =>
      rw [hget] at h
      exact absurd h.1 ((refuses_problem (isError_ofJournalError e)).status_ne (by decide))
    | ok d =>
      rw [hget] at h
      obtain ⟨-, hbody | ⟨cs, hbody, -⟩⟩ := h
      · rw [Body.calculation.inj hbody]
      · have hbody : Body.calculation d = .calculations cs := hbody
        simp at hbody
  rw [Journal.run_get] at hfound
  cases hrow : s.row? id with
  | none => simp [hrow] at hfound
  | some r =>
    have hid := Store.id_of_row? hrow
    refine ⟨r, Store.mem_rows_iff.2 (hid ▸ hrow), ?_⟩
    simp only [hrow] at hfound
    cases hread : r.toCalculation with
    | error e =>
      rw [hread] at hfound
      cases hfound
    | ok d =>
      rw [hread] at hfound
      cases hfound
      rfl

/-- **What a GET shows is what a row is read as.** -/
theorem toCalculation_of_shows (hmethod : g.method = "GET")
    (hreadable : ∀ r ∈ s.rows, ∃ c, r.toCalculation = .ok c)
    (h : ((answer context g).run (.working s)).1.Shows c) :
    ∃ r ∈ s.rows, r.toCalculation = .ok c := by
  rcases answer_cases context g with ⟨a, hanswer, hrefuses⟩ |
    ⟨route, endpoint, hroute, hendpoint, -, -⟩
  · rw [hanswer] at h
    exact absurd h.1 (hrefuses.status_ne (by decide))
  · rw [answer_of_endpoint hroute hendpoint (by rw [hmethod]; decide)] at h
    have hread := endpoint?_get (hmethod ▸ hendpoint)
    cases endpoint with
    | health =>
      obtain ⟨-, hbody | ⟨cs, hbody, -⟩⟩ := h
      · simp [Endpoint.answer, Plan.run, Response.json] at hbody
      · simp [Endpoint.answer, Plan.run, Response.json] at hbody
    | history => exact toCalculation_of_shows_list hreadable rfl h
    | search segment =>
      simp only [Endpoint.answer] at h
      cases hpredicate : readPredicate segment with
      | error p =>
        rw [hpredicate] at h
        have hrefuses := refuses_problem (isError_readPredicate hpredicate)
        exact absurd h.1 (hrefuses.status_ne (by decide))
      | ok text =>
        rw [hpredicate] at h
        exact toCalculation_of_shows_list hreadable rfl h
    | get segment =>
      simp only [Endpoint.answer] at h
      cases hid : readId segment with
      | error p =>
        rw [hid] at h
        exact absurd h.1 ((refuses_problem (isError_readId hid)).status_ne (by decide))
      | ok id =>
        rw [hid] at h
        exact toCalculation_of_shows_get h
    | create | update | delete => simp [Endpoint.isRead] at hread

end Showing

/-! ## 4. What is put back -/

/-- A request that puts the text of a calculation back under its id. -/
structure Request.Returns (p : Request) (c : Calculation) : Prop where
  method_eq : p.method = "PUT"
  pathId?_eq : p.pathId? = some c.id
  isJson : (p.contentType.map isJson).getD false = true
  body_eq : p.body = Utf8.encode (Body.calculation c).text.toList
  length_le : p.body.length ≤ bodyLimit

/-- A calculation is put back to the place that was told when it was filed. -/
def Request.returning (c : Calculation) : Request :=
  ⟨"PUT", "/calculations/" ++ c.id.text, some "application/json",
    Utf8.encode (Body.calculation c).text.toList⟩

section Returning

variable {context : Context} {p : Request} {c : Calculation} {s : Store}

/-- Every calculation can be put back, unless its text is too long for a body. -/
theorem Request.returns_returning (h : (Request.returning c).body.length ≤ bodyLimit) :
    (Request.returning c).Returns c where
  method_eq := rfl
  pathId?_eq := Request.pathId?_of_readId (ofPath?_location c.id) (readId_text c.id)
  isJson := (by decide +kernel : ((some "application/json").map Http.isJson).getD false = true)
  body_eq := rfl
  length_le := h

/-- What is put back is read as it is written. -/
theorem Request.Returns.readBody (h : p.Returns c) :
    readBody Json.readCalculation p = .ok c.asWritten := by
  have hread : Json.readCalculation (Json.lexBytes p.body) = .ok c.asWritten := by
    rw [h.body_eq, Body.text, String.toList_ofList, Body.tokens, Json.lexBytes_calculation,
      Json.readCalculation_tokens]
  exact Request.Carries.readBody_eq ⟨Request.namesJson_iff.1 h.isJson, h.length_le, hread⟩

/-- What is put back is asked to be written over what stands under its id. -/
theorem Request.Returns.answer_eq (h : p.Returns c) : answer context p
    = respond (fun c => .json 200 (.calculation c))
        (Journal.update context.limit c.id c.asWritten) := by
  obtain ⟨segment, hroute, hid⟩ := Request.readId_of_pathId? h.pathId?_eq
  have hendpoint : (Route.calculation segment).endpoint? p.method = some (.update segment) := by
    rw [h.method_eq]
    rfl
  rw [answer_of_endpoint hroute hendpoint (by rw [h.method_eq]; decide), Endpoint.answer, hid,
    h.readBody]

/-- **A calculation that stands under its id already can be put back**, and nothing changes. -/
theorem Request.Returns.run_answer (h : p.Returns c)
    (hadmitted : Expression.Admitted context.limit c.expression)
    (hrow : s.row? c.id = some c.row) (hcut : c.cut = c) (hwritten : c.asWritten = c) :
    (answer context p).run (.working s) = (.json 200 (.calculation c), .working s) := by
  have hobjection := Journal.objection?_of_admitted hadmitted
  rw [h.answer_eq, hwritten, run_respond, Journal.run_update_of_valid hobjection,
    Store.update_of_row? hrow, hcut]
  rfl

end Returning

end Http

namespace Service

/-! ## 5. After every run -/

variable {limit : Nat} {visits : List Visit} {s : Store} {log : List Settled}

/-- What the row of a course is read as has that row and is written as it is, and its expression
was admitted. -/
theorem Course.read_row (h : Course limit visits s log) {r : Row} (hr : r ∈ s.rows) :
    ∃ c, r.toCalculation = .ok c ∧ c.row = r ∧ c.cut = c ∧ c.asWritten = c ∧
      Expression.Admitted limit c.expression := by
  obtain ⟨c, rfl, hadmitted, -⟩ := h.provenance.rows r hr
  exact ⟨c.kept, Row.toCalculation_row c, Row.row_kept c, c.cut_kept, c.asWritten_kept, hadmitted⟩

/-- **What is sent once more or sent back changes nothing.** After every run, a PUT that is sent
twice is answered alike both times, and leaves what it left at first. Each row is shown by a GET
of its id, and whatever a GET shows, of one calculation or of many, is answered with 200 and the
same text when it is put back under its id, and rows and counter are as they were. -/
theorem answer_put_idempotent (limit : Nat) (visits : List Visit) :
    (∀ (r : Http.Request) (now later : Instant), r.method = "PUT" →
      (Http.answer ⟨limit, later⟩ r).run
          ((Http.answer ⟨limit, now⟩ r).run (run limit visits).repository).2
        = (Http.answer ⟨limit, now⟩ r).run (run limit visits).repository) ∧
    ∃ s, (run limit visits).repository = .working s ∧
      (∀ row ∈ s.rows, ∃ c : Calculation, c.id = row.id ∧
        ∀ (g : Http.Request) (now : Instant), g.method = "GET" → g.pathId? = some row.id →
          (Http.answer ⟨limit, now⟩ g).run (.working s)
            = (.json 200 (.calculation c), .working s)) ∧
      ∀ (g p : Http.Request) (c : Calculation) (now later : Instant), g.method = "GET" →
        ((Http.answer ⟨limit, now⟩ g).run (.working s)).1.Shows c → p.Returns c →
        Text.Occurs (Http.Body.calculation c).text
          ((Http.answer ⟨limit, now⟩ g).run (.working s)).1.body.text ∧
        (Http.answer ⟨limit, later⟩ p).run (.working s)
          = (.json 200 (.calculation c), .working s) := by
  obtain ⟨s, hs, hcourse⟩ := course_run limit visits
  refine ⟨fun r now later hmethod => Http.run_put_twice hmethod now later _, s, hs, ?_, ?_⟩
  · intro row hrow
    obtain ⟨c, hread, -⟩ := hcourse.read_row hrow
    refine ⟨c, Row.id_of_toCalculation hread, fun g now hmethod hid => ?_⟩
    rw [Http.answer_get hmethod hid, Http.run_respond, Journal.run_get,
      Store.mem_rows_iff.1 hrow]
    simp only [hread]
    rfl
  · intro g p c now later hmethod hshows hreturns
    have hreadable : ∀ r ∈ s.rows, ∃ c, r.toCalculation = .ok c := by
      intro r hr
      obtain ⟨c, hread, -⟩ := hcourse.read_row hr
      exact ⟨c, hread⟩
    obtain ⟨row, hrow, hread⟩ := Http.toCalculation_of_shows hmethod hreadable hshows
    -- a row is read as one calculation only, so what is shown is what the row was made of
    obtain ⟨d, hread', rfl, hcut, hwritten, hadmitted⟩ := hcourse.read_row hrow
    obtain rfl : c = d := Except.ok.inj (hread.symm.trans hread')
    exact ⟨hshows.occurs,
      hreturns.run_answer hadmitted (Store.mem_rows_iff.1 hrow) hcut hwritten⟩

/-- A negative zero is filed. It is read without its sign, and put back as it was read. -/
theorem answer_put_negation :
    let now := Http.oneMorning.now
    let c := negation false now.toMicroseconds
    let left := (run 9 [⟨now, .send (Http.filing "-0")⟩]).repository
    ((Http.answer ⟨9, now⟩ (Http.asking "/calculations/1")).run left).1.Shows c ∧
      (Http.Request.returning c).Returns c ∧
      (Http.answer ⟨9, now⟩ (Http.Request.returning c)).run left
        = (.json 200 (.calculation c), left) := by
  intro now c left
  obtain ⟨-, s, hs, -, hback⟩ := answer_put_idempotent 9 [⟨now, .send (Http.filing "-0")⟩]
  have hshown : ((Http.answer ⟨9, now⟩ (Http.asking "/calculations/1")).run left).1
      = .json 200 (.calculation c) := by
    decide +kernel
  have hshows : ((Http.answer ⟨9, now⟩ (Http.asking "/calculations/1")).run left).1.Shows c := by
    rw [hshown]
    exact ⟨rfl, .inl rfl⟩
  have hreturns : (Http.Request.returning c).Returns c :=
    Http.Request.returns_returning (by decide +kernel)
  refine ⟨hshows, hreturns, ?_⟩
  have hleft : left = .working s := hs
  rw [hleft] at hshows ⊢
  exact (hback _ _ c now now rfl hshows hreturns).2

end Service

end CalcJournal
