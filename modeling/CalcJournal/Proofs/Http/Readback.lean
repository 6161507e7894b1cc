/-
CalcJournal.Proofs.Http.Readback — reading a calculation that has just been written.

A request that writes is answered with the calculation that was handed to the store, and
a request that reads with what the row of its id gives back. Both end in JSON, from which
a calculation can be told as it is written (`write_calculationTokens_eq_iff`), so the two texts
are the same exactly when the row gives back what was handed in, as it is written. It does,
whatever the date, and whatever the result with one exception: a negative zero comes back
without its sign.
-/
import CalcJournal.Proofs.Http.Location
import CalcJournal.Proofs.Http.Status
import CalcJournal.Proofs.Json.Calculation

namespace CalcJournal

/-! ## 1. What a row gives back -/

/-- The calculation with the sign of a zero dropped. -/
def Calculation.unsigned (c : Calculation) : Calculation :=
  { c with result := if c.result = .zero true then .zero false else c.result }

/-- The result column gives back every double but the negative zero. -/
theorem Row.getD_column (x : Binary64) :
    (column x).getD .nan = if x = .zero true then .zero false else x := by
  unfold column
  split
  case h_1 => rfl
  case h_2 => split <;> rfl

theorem Calculation.kept_eq (c : Calculation) : c.kept = c.cut.unsigned.asWritten := by
  rw [kept, Row.getD_column]
  rfl

theorem Calculation.unsigned_eq_iff {c : Calculation} :
    c.unsigned = c ↔ c.result ≠ .zero true := by
  constructor
  · intro h hzero
    have hunsigned : c.unsigned.result = .zero false := if_pos hzero
    rw [h, hzero] at hunsigned
    exact absurd hunsigned (by decide)
  · intro h
    rw [unsigned, if_neg h]

/-- It makes no difference whether a sign is dropped before a calculation is written or behind. -/
theorem Calculation.asWritten_unsigned (c : Calculation) :
    c.unsigned.asWritten = c.asWritten.unsigned := rfl

/-- A calculation whose row stands under its id is found as the row gives it back. -/
theorem Journal.run_get_of_row? {c : Calculation} {t : Store} (h : t.row? c.id = some c.row) :
    (Journal.get c.id).run (.working t) = (.ok c.cut.unsigned.asWritten, .working t) := by
  simp only [run_get, h, Row.toCalculation_row, Calculation.kept_eq]
  rfl

namespace Http

/-! ## 2. Requests -/

/-- A request that does not ask for the head alone is answered as its endpoint answers. -/
theorem answer_of_endpoint {context : Context} {r : Request} {route : Route}
    {endpoint : Endpoint} (hroute : Route.ofPath? (Target.path r.target.toList) = some route)
    (hendpoint : route.endpoint? r.method = some endpoint) (hhead : r.method ≠ "HEAD") :
    answer context r = endpoint.answer context r := by
  have hwhole : (r.method == "HEAD") = false := by simpa using hhead
  simp only [answer, hroute, hendpoint, hwhole]
  rfl

/-- A refusal has none of the statuses of success. -/
theorem Response.Refuses.status_ne {a : Response} (h : a.Refuses) {status : Nat}
    (hstatus : status < 400) : a.status ≠ status := by
  have h : 400 ≤ a.status := h
  omega

theorem endpoint?_post {route : Route} {endpoint : Endpoint}
    (h : route.endpoint? "POST" = some endpoint) : endpoint = .create := by
  cases route <;> simp [Route.endpoint?] at h
  exact h.symm

section Requests

variable {context : Context} {r : Request} {s : Store}

/-- A POST is refused, or it files an expression. -/
theorem answer_of_post (hmethod : r.method = "POST") :
    (∃ a : Response, answer context r = .answer a ∧ a.Refuses) ∨
      answer context r = Endpoint.create.answer context r := by
  rcases answer_cases context r with hrefused | ⟨route, endpoint, hroute, hendpoint, -, -⟩
  · exact .inl hrefused
  · obtain rfl := endpoint?_post (hmethod ▸ hendpoint)
    exact .inr (answer_of_endpoint hroute hendpoint (by rw [hmethod]; decide))

/-- A PUT is refused, or it writes over the calculation of its path. -/
theorem answer_of_put (hmethod : r.method = "PUT") :
    (∃ a : Response, answer context r = .answer a ∧ a.Refuses) ∨
      ∃ segment, Route.ofPath? (Target.path r.target.toList) = some (.calculation segment) ∧
        answer context r = (Endpoint.update segment).answer context r := by
  rcases answer_cases context r with hrefused | ⟨route, endpoint, hroute, hendpoint, -, -⟩
  · exact .inl hrefused
  · obtain ⟨segment, rfl⟩ := endpoint?_put (hmethod ▸ hendpoint)
    obtain ⟨-, rfl⟩ := endpoint?_update hendpoint
    exact .inr ⟨segment, hroute, answer_of_endpoint hroute hendpoint (by rw [hmethod]; decide)⟩

/-- What a POST has filed. -/
theorem answer_post (hmethod : r.method = "POST")
    (hstatus : ((answer context r).run (.working s)).1.status = 201) :
    ∃ (c : Calculation) (t : Store), t.row? c.id = some c.row ∧
      (answer context r).run (.working s) = (createdResponse c.cut, .working t) := by
  rcases @answer_of_post context r hmethod with ⟨a, hanswer, hrefuses⟩ | hanswer
  · rw [hanswer] at hstatus
    exact absurd hstatus (hrefuses.status_ne (by decide))
  · rw [hanswer] at hstatus ⊢
    rcases @Endpoint.create_outcome context r s with ⟨c, fresh, -, hrun⟩ | ⟨a, hrefuses, hrun⟩
    · refine ⟨c, s.push c.row fresh, ?_, hrun⟩
      rw [Store.row?_push, Calculation.row_id, if_pos rfl]
    · rw [hrun] at hstatus
      exact absurd hstatus (hrefuses.status_ne (by decide))

/-- What a PUT has written over. -/
theorem answer_put (hmethod : r.method = "PUT")
    (hstatus : ((answer context r).run (.working s)).1.status = 200) :
    ∃ (c : Calculation) (t : Store), r.pathId? = some c.id ∧ t.row? c.id = some c.row ∧
      (answer context r).run (.working s) = (.json 200 (.calculation c.cut), .working t) := by
  rcases @answer_of_put context r hmethod with ⟨a, hanswer, hrefuses⟩ | ⟨segment, hroute, hanswer⟩
  · rw [hanswer] at hstatus
    exact absurd hstatus (hrefuses.status_ne (by decide))
  · rw [hanswer] at hstatus ⊢
    rcases @Endpoint.update_outcome context r s segment with
      ⟨c, row, hid, -, hrow, -, hrun⟩ | ⟨a, hrefuses, hrun, -⟩
    · refine ⟨c, s.replace c.row, Request.pathId?_of_readId hroute hid, ?_, hrun⟩
      rw [Store.row?_replace, Calculation.row_id, if_pos rfl, hrow, Option.map_some]
    · rw [hrun] at hstatus
      exact absurd hstatus (hrefuses.status_ne (by decide))

/-- A GET of a path with an id asks the journal for that id. -/
theorem answer_get {id : CalculationId} (hmethod : r.method = "GET")
    (hid : r.pathId? = some id) :
    answer context r = respond (fun c => .json 200 (.calculation c)) (Journal.get id) := by
  obtain ⟨segment, hroute, hread⟩ := Request.readId_of_pathId? hid
  have hendpoint : (Route.calculation segment).endpoint? r.method = some (.get segment) := by
    rw [hmethod]
    rfl
  rw [answer_of_endpoint hroute hendpoint (by rw [hmethod]; decide), Endpoint.answer, hread]

end Requests

/-! ## 3. The text of an answer -/

/-- Two calculations are sent as the same text exactly when they are the same as they are
written. -/
theorem text_calculation_eq_iff {c d : Calculation} :
    (Body.calculation c).text = (Body.calculation d).text ↔ c.asWritten = d.asWritten := by
  rw [← Json.write_calculationTokens_eq_iff, Body.text, Body.text, String.ofList_inj]
  rfl

/-! ## 4. Writing, then reading -/

/-- A request that reads what another one, answered with `a`, has written: after a POST from
the place that the answer names, and after a PUT from any path with the same id. -/
def Request.Rereads (q r : Request) (a : Response) : Prop :=
  q.method = "GET" ∧
    (r.method = "POST" ∧ a.status = 201 ∧ a.location = some q.target ∨
      r.method = "PUT" ∧ a.status = 200 ∧ q.pathId? = r.pathId?)

/-- The place that is told for a calculation names its id. -/
theorem pathId?_of_location {q : Request} {c : Calculation}
    (h : (createdResponse c).location = some q.target) : q.pathId? = some c.id := by
  have htarget : q.target = "/calculations/" ++ c.id.text := (Option.some.inj h).symm
  refine Request.pathId?_of_readId ?_ (readId_text c.id)
  rw [htarget, ofPath?_location]

/-- What is written stands under the id that is read next, and is what was answered. -/
theorem exists_written {context : Context} {r q : Request} {s : Store}
    (h : q.Rereads r ((answer context r).run (.working s)).1) :
    ∃ (c : Calculation) (t : Store), q.pathId? = some c.id ∧ t.row? c.id = some c.row ∧
      ((answer context r).run (.working s)).1.body = .calculation c.cut ∧
      ((answer context r).run (.working s)).2 = .working t := by
  obtain ⟨-, ⟨hpost, hstatus, hlocation⟩ | ⟨hput, hstatus, hpath⟩⟩ := h
  · obtain ⟨c, t, hrow, hrun⟩ := answer_post hpost hstatus
    rw [hrun] at hlocation ⊢
    exact ⟨c, t, pathId?_of_location (c := c.cut) hlocation, hrow, rfl, rfl⟩
  · obtain ⟨c, t, hid, hrow, hrun⟩ := answer_put hput hstatus
    rw [hrun]
    exact ⟨c, t, hpath.trans hid, hrow, rfl, rfl⟩

/-- **What a write answers is what is read next, but for the sign of a zero.** Whatever the
store and the clock, a GET that follows an accepted POST or PUT is answered with 200 and the
calculation of that answer as it is written, with the sign of a zero dropped, and it changes
nothing. So the two texts are the same exactly when the result is no negative zero. -/
theorem get_after_write {context later : Context} {r q : Request} {s : Store} {a : Response}
    {left : Repository} (hwrite : (answer context r).run (.working s) = (a, left))
    (hread : q.Rereads r a) :
    ∃ c : Calculation, a.body = .calculation c ∧
      (answer later q).run left = (.json 200 (.calculation c.unsigned.asWritten), left) ∧
      ((Body.calculation c.unsigned.asWritten).text = a.body.text ↔ c.result ≠ .zero true) := by
  have hanswered : ((answer context r).run (.working s)).1 = a := by rw [hwrite]
  have hleft : ((answer context r).run (.working s)).2 = left := by rw [hwrite]
  obtain ⟨c, t, hid, hrow, hbody, hstore⟩ := exists_written (hanswered.symm ▸ hread)
  rw [hanswered] at hbody
  rw [hleft] at hstore
  refine ⟨c.cut, hbody, ?_, ?_⟩
  · rw [answer_get hread.1 hid, run_respond, hstore, Journal.run_get_of_row? hrow]
  · rw [hbody, text_calculation_eq_iff, Calculation.asWritten_asWritten,
      Calculation.asWritten_unsigned, Calculation.unsigned_eq_iff]
    rfl

/-- The request to file an expression that needs no escapes. -/
def filing (expression : String) : Request :=
  ⟨"POST", "/calculations", some "application/json",
    Utf8.encode ("\x7b\"expression\":\"" ++ expression ++ "\"\x7d").toList⟩

/-- The request for what stands at a path. -/
def asking (path : String) : Request := ⟨"GET", path, none, []⟩

/-- Expressions of up to a thousand characters are filed, all in the same moment. -/
def oneMorning : Context where
  limit := 1000
  now := ⟨⟨2024, 1, 15, by decide⟩, ⟨10, 30, 5, 7, by decide, by decide, by decide, by decide⟩⟩

/-- The first expression that is filed: the answer, and what is left. -/
def firstFiled (expression : String) : Response × Repository :=
  (answer oneMorning (filing expression)).run (.working .empty)

/-- A quarter is filed, and then read. -/
theorem get_after_quarter :
    (asking "/calculations/1").Rereads (filing "1/4") (firstFiled "1/4").1 ∧
    ∃ c : Calculation, (firstFiled "1/4").1.body = .calculation c ∧
      (answer oneMorning (asking "/calculations/1")).run (firstFiled "1/4").2
        = (.json 200 (.calculation c.unsigned.asWritten), (firstFiled "1/4").2) ∧
      ((Body.calculation c.unsigned.asWritten).text = (firstFiled "1/4").1.body.text ↔
        c.result ≠ .zero true) := by
  have hread : (asking "/calculations/1").Rereads (filing "1/4") (firstFiled "1/4").1 :=
    ⟨rfl, .inl ⟨rfl, by decide +kernel, by decide +kernel⟩⟩
  exact ⟨hread, get_after_write rfl hread⟩

/-- A negative zero is filed, and what is read then is another text. -/
theorem negative_zero_not_read_back :
    (asking "/calculations/1").Rereads (filing "-0") (firstFiled "-0").1 ∧
    ((answer oneMorning (asking "/calculations/1")).run (firstFiled "-0").2).1.status = 200 ∧
    ((answer oneMorning (asking "/calculations/1")).run (firstFiled "-0").2).1.body.text
      ≠ (firstFiled "-0").1.body.text := by
  refine ⟨⟨rfl, .inl ⟨rfl, ?_, ?_⟩⟩, ?_, ?_⟩
  · decide +kernel
  · decide +kernel
  · decide +kernel
  · decide +kernel

end Http

end CalcJournal
