/-
CalcJournal.Proofs.Http.Commuting — writes that are not aimed at the same calculation.

A use of the journal asks the store for one thing at most, so two uses can be carried out in
either order when what they ask for can (`Plan.commute_of_commands`). What is asked for is
aimed at the id that the use names: that of the path, for a request. A use that files an
expression is aimed at none, and stays apart from all but the id that it is given.

That id is the one after the counter, which is above the ids of all rows. So filing and the
deletion of a row that is there are always apart, be it the newest one.
-/
import CalcJournal.Proofs.Http.Readback
import CalcJournal.Proofs.Journal.Operation
import CalcJournal.Proofs.Store.Rewriting

namespace CalcJournal

/-! ## 1. Plans -/

namespace Plan

variable {α β : Type} {s : Store} {p : Plan α} {q : Plan β}

/-- Two plans commute on a store: in either order they get the same two answers, and leave the
same store. -/
structure Commute (s : Store) (p : Plan α) (q : Plan β) : Prop where
  first : (p.run (q.run (.working s)).2).1 = (p.run (.working s)).1
  second : (q.run (p.run (.working s)).2).1 = (q.run (.working s)).1
  left : (q.run (p.run (.working s)).2).2 = (p.run (q.run (.working s)).2).2

/-- Plans commute when the commands that they ask do. -/
theorem commute_of_commands
    (h : ∀ c d, p.command? = some c → q.command? = some d → s.Commute c d) : Commute s p q := by
  cases p with
  | answer a => exact ⟨rfl, rfl, rfl⟩
  | ask c next =>
    cases q with
    | answer b => exact ⟨rfl, rfl, rfl⟩
    | ask d next' =>
      obtain ⟨hfirst, hsecond, hleft⟩ := h c d rfl rfl
      exact ⟨congrArg next hfirst, congrArg next' hsecond, congrArg Repository.working hleft⟩

end Plan

/-! ## 2. Uses of the journal -/

/-- A use that files an expression asks for a draft to be filed, and when an id is left, the
answer has that id. -/
theorem Journal.create_asks {limit : Nat} {now : Instant} {expression : String} {c : Command}
    (h : (create limit now expression).command? = some c) (s : Store) :
    ∃ draft, c = .create draft ∧ ∀ id, s.nextId? = some id →
      ((create limit now expression).run (.working s)).1 = .ok (draft.withId id).cut := by
  cases hassess : assess limit expression with
  | error e =>
    rw [create, hassess] at h
    simp [Plan.command?] at h
  | ok draft =>
    obtain ⟨category, value⟩ := draft
    refine ⟨⟨category, expression, now, value⟩, ?_, ?_⟩
    · rw [create, hassess] at h
      exact (Option.some.inj h).symm
    · intro id hnext
      rw [run_create_of_assess hassess, Store.reply_create, hnext]
      rfl

namespace Operation

/-- The id at which an update or a deletion is aimed. -/
def aim? : Operation → Option CalculationId
  | .update _ id _ | .delete id => some id
  | .create .. | .get _ | .history | .search _ => none

/-- Two operations that write are apart: they are aimed at different ids, or one files an
expression, and the other is aimed at another id than that one is given. -/
inductive Apart (s : Store) : Operation → Operation → Prop
  | alterations {o o' : Operation} {a b : CalculationId} (ho : o.aim? = some a)
      (ho' : o'.aim? = some b) (hne : a ≠ b) : Apart s o o'
  | filing {limit : Nat} {now : Instant} {expression : String} {o : Operation}
      {b : CalculationId} (ho : o.aim? = some b)
      (hne : ∀ c, ((Journal.create limit now expression).run (.working s)).1 = .ok c → c.id ≠ b) :
      Apart s (.create limit now expression) o

/-- What an operation asks for is aimed where the operation is. -/
theorem alters_of_aim {o : Operation} {id : CalculationId} {d : Command}
    (haim : o.aim? = some id) (hasked : o.plan.command? = some d) :
    ∃ left?, d.Alters id left? := by
  cases o <;> simp only [aim?, reduceCtorEq, Option.some.injEq] at haim
  case update limit asked c =>
    subst haim
    rw [plan, Plan.command?_map] at hasked
    obtain ⟨rfl, rfl⟩ := Journal.command?_update hasked
    exact ⟨_, .update c⟩
  case delete asked =>
    subst haim
    obtain rfl := Option.some.inj hasked
    exact ⟨_, .delete asked⟩

/-- **Operations that write and are apart commute.** -/
theorem Apart.commute {s : Store} {o o' : Operation} (h : o.Apart s o') :
    Plan.Commute s o.plan o'.plan := by
  refine Plan.commute_of_commands fun c d hc hd => ?_
  cases h with
  | alterations ho ho' hne =>
    obtain ⟨_, hc⟩ := alters_of_aim ho hc
    obtain ⟨_, hd⟩ := alters_of_aim ho' hd
    exact Store.commute_of_alters hc hd hne s
  | filing ho hne =>
    obtain ⟨_, hd⟩ := alters_of_aim ho hd
    rw [plan, Plan.command?_map] at hc
    obtain ⟨draft, rfl, hgiven⟩ := Journal.create_asks hc s
    exact Store.commute_create draft hd fun hnext => hne _ (hgiven _ hnext) rfl

end Operation

/-! ## 3. Requests -/

namespace Http

/-- A request asks for an update or a deletion. -/
def Request.Alters (r : Request) : Prop := r.method = "PUT" ∨ r.method = "DELETE"

/-- A response tells that something was filed under an id. -/
def Response.Gives (a : Response) (id : CalculationId) : Prop :=
  a.status = 201 ∧ a.location = some ("/calculations/" ++ id.text)

/-- Two requests that write are apart: the ids of their paths differ, or one files an
expression, and the path of the other has another id than that one is given. -/
inductive Request.Apart (context : Context) (s : Store) : Request → Request → Prop
  | alterations {r r' : Request} (hr : r.Alters) (hr' : r'.Alters)
      (hne : ∀ id, r.pathId? = some id → r'.pathId? ≠ some id) : Apart context s r r'
  | filing {r r' : Request} (hr : r.method = "POST") (hr' : r'.Alters)
      (hne : ∀ id, r'.pathId? = some id → ¬ ((answer context r).run (.working s)).1.Gives id) :
      Apart context s r r'

section Requests

variable {context : Context} {r : Request} {s : Store} {c : Command}

/-- The only endpoint of a deletion is that of the calculation of its path. -/
theorem endpoint?_deletion {route : Route} {endpoint : Endpoint}
    (h : route.endpoint? "DELETE" = some endpoint) :
    ∃ segment, endpoint = .delete segment ∧ route = .calculation segment := by
  cases route <;> simp [Route.endpoint?] at h
  exact ⟨_, h.symm, rfl⟩

/-- What a request to update or to delete asks for is aimed at the id of its path. -/
theorem alters_of_request (hr : r.Alters) (hasked : (answer context r).command? = some c) :
    ∃ id left?, r.pathId? = some id ∧ c.Alters id left? := by
  rcases answer_cases context r with ⟨a, hanswer, -⟩ |
    ⟨route, endpoint, hroute, hendpoint, hcommand, -⟩
  · simp [hanswer, Plan.command?] at hasked
  rw [hcommand] at hasked
  rcases hr with hput | hdelete
  · obtain ⟨segment, rfl⟩ := endpoint?_put (hput ▸ hendpoint)
    obtain ⟨-, rfl⟩ := endpoint?_update hendpoint
    obtain ⟨d, hid, -, rfl⟩ := Endpoint.command?_update hasked
    exact ⟨d.id, _, Request.pathId?_of_readId hroute hid, .update d⟩
  · obtain ⟨segment, rfl, rfl⟩ := endpoint?_deletion (hdelete ▸ hendpoint)
    obtain ⟨id, hid, rfl⟩ := Endpoint.command?_delete hasked
    exact ⟨id, _, Request.pathId?_of_readId hroute hid, .delete id⟩

/-- A request to file an expression asks for a draft to be filed, and when an id is left, the
answer gives that id. -/
theorem create_of_request (hr : r.method = "POST")
    (hasked : (answer context r).command? = some c) (s : Store) :
    ∃ draft, c = .create draft ∧ ∀ id, s.nextId? = some id →
      ((answer context r).run (.working s)).1.Gives id := by
  rcases @answer_of_post context r hr with ⟨a, hanswer, -⟩ | hanswer
  · simp [hanswer, Plan.command?] at hasked
  · rw [hanswer, Endpoint.answer] at hasked ⊢
    cases hbody : readBody Json.readRequest r with
    | error p => simp [hbody, Plan.command?] at hasked
    | ok expression =>
      simp only [hbody, respond, Plan.command?_map] at hasked
      obtain ⟨draft, rfl, hgiven⟩ := Journal.create_asks hasked s
      refine ⟨draft, rfl, fun id hnext => ?_⟩
      show ((respond createdResponse _).run (.working s)).1.Gives id
      rw [run_respond, hgiven id hnext]
      exact ⟨rfl, rfl⟩

/-- **Requests that write and are apart commute.** -/
theorem Request.Apart.commute {context' : Context} {r' : Request}
    (h : Request.Apart context s r r') :
    Plan.Commute s (answer context r) (answer context' r') := by
  refine Plan.commute_of_commands fun c d hc hd => ?_
  cases h with
  | alterations hr hr' hne =>
    obtain ⟨a, _, ha, hc⟩ := alters_of_request hr hc
    obtain ⟨b, _, hb, hd⟩ := alters_of_request hr' hd
    exact Store.commute_of_alters hc hd (fun hab => hne a ha (hab ▸ hb)) s
  | filing hr hr' hne =>
    obtain ⟨b, _, hb, hd⟩ := alters_of_request hr' hd
    obtain ⟨draft, rfl, hgives⟩ := create_of_request hr hc s
    exact Store.commute_create draft hd fun hnext => hne b hb (hgives b hnext)

/-- The place that is told for an id names no other one. -/
theorem location_injective {id id' : CalculationId}
    (h : "/calculations/" ++ id.text = "/calculations/" ++ id'.text) : id = id' := by
  have htext : id.text.toList = id'.text.toList := by
    have hlist := congrArg String.toList h
    rw [String.toList_append, String.toList_append] at hlist
    exact List.append_cancel_left hlist
  have hread := CalculationId.ofText?_text id
  rw [htext, CalculationId.ofText?_text] at hread
  exact (Option.some.inj hread).symm

/-- The id that is given has no row yet. -/
theorem Response.Gives.fresh {id : CalculationId} (hr : r.method = "POST")
    (h : ((answer context r).run (.working s)).1.Gives id) : ∀ row ∈ s.rows, row.id ≠ id := by
  obtain ⟨hstatus, hlocation⟩ := h
  rcases @answer_of_post context r hr with ⟨a, hanswer, hrefuses⟩ | hanswer
  · rw [hanswer] at hstatus
    exact absurd hstatus (hrefuses.status_ne (by decide))
  · rw [hanswer] at hstatus hlocation
    rcases @Endpoint.create_outcome context r s with ⟨c, fresh, -, hrun⟩ | ⟨a, hrefuses, hrun⟩
    · rw [hrun] at hlocation
      obtain rfl := location_injective (Option.some.inj hlocation)
      exact fresh
    · rw [hrun] at hstatus
      exact absurd hstatus (hrefuses.status_ne (by decide))

end Requests

/-- **Writes that are not aimed at the same calculation commute.** On every store, two updates
or deletions under different ids, whether there is anything under them or not, get the same two
answers in either order and leave the same store, its counter included. So do the filing of an
expression and an update or deletion under another id than the filing gives, and the id of a
row that is there, such as the newest one, always is another one. -/
theorem writes_commute (s : Store) :
    (∀ o o' : Operation, o.Apart s o' → Plan.Commute s o.plan o'.plan) ∧
    (∀ (context context' : Context) (r r' : Request), Request.Apart context s r r' →
      Plan.Commute s (answer context r) (answer context' r')) ∧
    ∀ (context : Context) (r r' : Request) (row : Row), r.method = "POST" → r'.Alters →
      row ∈ s.rows → r'.pathId? = some row.id → Request.Apart context s r r' := by
  refine ⟨fun o o' h => h.commute, fun context context' r r' h => h.commute, ?_⟩
  intro context r r' row hr hr' hrow hid
  refine .filing hr hr' fun id hpath hgives => ?_
  obtain rfl : row.id = id := Option.some.inj (hid.symm.trans hpath)
  exact hgives.fresh hr row hrow rfl

/-- The request to delete what stands at a path. -/
def erasing (path : String) : Request := ⟨"DELETE", path, none, []⟩

/-- A store in which one expression has been filed. -/
def oneFiled : Store := (Store.empty.create ⟨.other, "1", oneMorning.now, .nan⟩).2

/-- The newest calculation is deleted and another one filed, in either order. -/
theorem writes_commute_newest :
    Request.Apart oneMorning oneFiled (filing "2") (erasing "/calculations/1") ∧
    ((answer oneMorning (filing "2")).run (.working oneFiled)).1.status = 201 ∧
    ((answer oneMorning (erasing "/calculations/1")).run (.working oneFiled)).1.status = 204 ∧
    Plan.Commute oneFiled (answer oneMorning (filing "2"))
      (answer oneMorning (erasing "/calculations/1")) := by
  obtain ⟨row, hrow, hid⟩ : ∃ row ∈ oneFiled.rows,
      (erasing "/calculations/1").pathId? = some row.id := by decide +kernel
  have hapart := (writes_commute oneFiled).2.2 oneMorning (filing "2")
    (erasing "/calculations/1") row rfl (.inr rfl) hrow hid
  exact ⟨hapart, by decide +kernel, by decide +kernel,
    (writes_commute oneFiled).2.1 _ oneMorning _ _ hapart⟩

end Http

end CalcJournal
