/-
CalcJournal.Proofs.Http.Precedence — what is wrong with a request is found before the store is
asked.

A request is settled before the store is asked, without a look at the clock, or it asks one
thing and is answered by the reply. In the second case nothing is wrong with the request: the
reply may be a success, the want of a calculation, or a failure of the store, and a failure
is handed on as it is (`Met`). So an answer that finds fault with the request is the answer
to that request whatever the store, and the store is not asked for it.

Nothing is said about what is in the place of the store: any states will do, and any reply to
every command in each of them (`Backend`).
-/
import CalcJournal.Proofs.Http.Readback

namespace CalcJournal

/-! ## 1. Backends -/

/-- What may stand in the place of a repository: states, and how each of them takes a command. -/
structure Backend where
  State : Type
  perform : State → (c : Command) → c.Reply × State

/-- The repositories that there are. -/
def Backend.repositories : Backend := ⟨Repository, Repository.perform⟩

namespace Plan

variable {α β : Type} {b : Backend}

/-- Carries out a plan on a backend. -/
def runOn (b : Backend) : Plan α → b.State → α × b.State
  | .answer a, x => (a, x)
  | .ask c next, x => (next (b.perform x c).1, (b.perform x c).2)

/-- To carry out a plan is to carry it out on the repositories that there are. -/
theorem runOn_repositories (p : Plan α) (r : Repository) : p.runOn .repositories r = p.run r := by
  cases p <;> rfl

end Plan

namespace Http

/-! ## 2. How requests are met -/

/-- The statuses that find fault with a request. -/
def requestFaults : List Nat := [400, 405, 413, 415, 422]

/-- How a response leaves: without its body, when the request is for the head alone. -/
def Request.finish (r : Request) (a : Response) : Response :=
  if r.method == "HEAD" then a.withoutBody else a

theorem Request.status_finish (r : Request) (a : Response) : (r.finish a).status = a.status := by
  unfold finish
  split <;> rfl

/-- What is done for a request, at each time: it is settled without the store, or one thing is
asked, a failure is handed on, and no reply finds fault with the request. -/
inductive Met (finish : Response → Response) (plan : Instant → Plan Response) : Prop
  | settled (a : Response) (h : ∀ now, plan now = .answer a)
  | asked (h : ∀ now, ∃ (c : Command) (next : c.Reply → Response), plan now = .ask c next ∧
      (∀ e, next (.error e) = finish (.problem (.ofJournalError (.ofStoreError e)))) ∧
      ∀ reply, (next reply).status ∉ requestFaults)

/-- A use of the journal hands on a failure, and refuses nothing but what is not there. -/
def Relays {α : Type} (j : Journal α) : Prop :=
  ∃ (c : Command) (next : c.Reply → Except JournalError α), j = .ask c next ∧
    (∀ e, next (.error e) = .error (.ofStoreError e)) ∧
    ∀ reply e, next reply = .error e → (∃ id, e = .notFound id) ∨ ∃ e', e = .storage e'

theorem ofStoreError_cases (e : StoreError) :
    (∃ id, JournalError.ofStoreError e = .notFound id) ∨
      ∃ e', JournalError.ofStoreError e = .storage e' := by
  cases e with
  | calculationNotFound id => exact .inl ⟨id, rfl⟩
  | connectionFailed | queryFailed | migrationFailed | unreadable => exact .inr ⟨_, rfl⟩

theorem relays_relay (c : Command) : Relays (Journal.relay c) := by
  refine ⟨c, _, rfl, fun e => rfl, fun reply e h => ?_⟩
  cases reply with
  | error e' =>
    obtain rfl := Except.error.inj h
    exact ofStoreError_cases e'
  | ok a => cases h

theorem relays_get (id : CalculationId) : Relays (Journal.get id) := by
  refine ⟨.find id, _, rfl, fun e => rfl, fun reply e h => ?_⟩
  rcases reply with e' | _ | c
  · obtain rfl := Except.error.inj h
    exact ofStoreError_cases e'
  · exact .inl ⟨id, (Except.error.inj h).symm⟩
  · simp at h

section Meeting

variable {limit : Nat} {r : Request}

/-- A use that relays is met by the reply. -/
theorem met_respond {α : Type} {success : α → Response} {j : Instant → Journal α}
    (hj : ∀ now, Relays (j now)) (hsuccess : ∀ a, (success a).status ∉ requestFaults) :
    Met id fun now => respond success (j now) := by
  refine .asked fun now => ?_
  obtain ⟨c, next, hask, hfailure, hrefusal⟩ := hj now
  refine ⟨c, _, congrArg (respond success) hask, fun e => ?_, fun reply => ?_⟩
  · rw [hfailure]
    rfl
  · cases hreply : next reply with
    | ok a => exact hsuccess a
    | error e =>
      rcases hrefusal reply e hreply with ⟨id, rfl⟩ | ⟨e', rfl⟩
      · show 404 ∉ requestFaults
        decide
      · show 500 ∉ requestFaults
        decide

theorem listResponse_not_mem (detail : String) (cs : List Calculation) :
    (listResponse detail cs).status ∉ requestFaults := by
  cases cs with
  | nil =>
    show 404 ∉ requestFaults
    decide
  | cons c cs =>
    show 200 ∉ requestFaults
    decide

/-- The journal refuses an expression without the store, or asks for its draft to be filed. -/
theorem create_settled_or_relays (limit : Nat) (expression : String) :
    (∃ e, ∀ now, Journal.create limit now expression = .answer (.error e)) ∨
      ∀ now, Relays (Journal.create limit now expression) := by
  cases hassess : Journal.assess limit expression with
  | error e =>
    refine .inl ⟨e, fun now => ?_⟩
    rw [Journal.create, hassess]
  | ok draft =>
    refine .inr fun now => ?_
    rw [Journal.create, hassess]
    exact relays_relay _

/-- The journal refuses an update without the store, or asks for it. -/
theorem update_settled_or_relays (limit : Nat) (id : CalculationId) (c : Calculation) :
    (∃ e, Journal.update limit id c = .answer (.error e)) ∨ Relays (Journal.update limit id c) := by
  rw [Journal.update]
  cases Journal.objection? limit id c with
  | some e => exact .inl ⟨e, rfl⟩
  | none => exact .inr (relays_relay _)

/-- **Every endpoint is met.** -/
theorem Endpoint.met (limit : Nat) (r : Request) (endpoint : Endpoint) :
    Met id fun now => endpoint.answer ⟨limit, now⟩ r := by
  cases endpoint with
  | health => exact .settled _ fun _ => rfl
  | history => exact met_respond (fun _ => relays_relay _) (listResponse_not_mem _)
  | search segment =>
    simp only [answer]
    cases readPredicate segment with
    | error p => exact .settled _ fun _ => rfl
    | ok text => exact met_respond (fun _ => relays_relay _) (listResponse_not_mem _)
  | get segment =>
    simp only [answer]
    cases readId segment with
    | error p => exact .settled _ fun _ => rfl
    | ok id => exact met_respond (fun _ => relays_get id) fun _ => (by decide : 200 ∉ requestFaults)
  | create =>
    simp only [answer]
    cases readBody Json.readRequest r with
    | error p => exact .settled _ fun _ => rfl
    | ok expression =>
      rcases create_settled_or_relays limit expression with ⟨e, he⟩ | hrelays
      · exact .settled (.problem (.ofJournalError e)) fun now => by simp only [he]; rfl
      · exact met_respond hrelays fun _ => (by decide : 201 ∉ requestFaults)
  | update segment =>
    simp only [answer]
    cases readId segment with
    | error p => exact .settled _ fun _ => rfl
    | ok id =>
      cases readBody Json.readCalculation r with
      | error p => exact .settled _ fun _ => rfl
      | ok c =>
        rcases update_settled_or_relays limit id c with ⟨e, he⟩ | hrelays
        · exact .settled (.problem (.ofJournalError e)) fun _ => by simp only [he]; rfl
        · exact met_respond (fun _ => hrelays) fun _ => (by decide : 200 ∉ requestFaults)
  | delete segment =>
    simp only [answer]
    cases readId segment with
    | error p => exact .settled _ fun _ => rfl
    | ok id =>
      exact met_respond (fun _ => relays_relay _) fun _ => (by decide : 204 ∉ requestFaults)

theorem Met.finish {plan : Instant → Plan Response} (h : Met id plan) (r : Request) :
    Met r.finish fun now => (plan now).map r.finish := by
  cases h with
  | settled a h => exact .settled (r.finish a) fun now => by rw [h]; rfl
  | asked h =>
    refine .asked fun now => ?_
    obtain ⟨c, next, hask, hfailure, hreply⟩ := h now
    refine ⟨c, _, congrArg (Plan.map r.finish) hask, fun e => ?_, fun reply => ?_⟩
    · show r.finish (next (.error e)) = _
      rw [hfailure]
      rfl
    · show (r.finish (next reply)).status ∉ requestFaults
      rw [r.status_finish]
      exact hreply reply

/-- What an endpoint answers leaves as the request wants it. -/
theorem answer_eq_finish {context : Context} {route : Route} {endpoint : Endpoint}
    (hroute : Route.ofPath? (Target.path r.target.toList) = some route)
    (hendpoint : route.endpoint? r.method = some endpoint) :
    answer context r = (endpoint.answer context r).map r.finish := by
  have hwhole : ∀ p : Plan Response, p = p.map fun a => a := by
    intro p
    cases p <;> rfl
  simp only [answer, hroute, hendpoint]
  unfold Request.finish
  split
  · rfl
  · exact hwhole _

/-- **Every request is met.** -/
theorem answer_met (limit : Nat) (r : Request) :
    Met r.finish fun now => answer ⟨limit, now⟩ r := by
  cases hroute : Route.ofPath? (Target.path r.target.toList) with
  | none => exact .settled (.bare 404) fun now => by simp only [answer, hroute]
  | some route =>
    cases hendpoint : route.endpoint? r.method with
    | none =>
      exact .settled (.methodNotAllowed route.methods) fun now => by
        simp only [answer, hroute, hendpoint]
    | some endpoint =>
      simp only [answer_eq_finish hroute hendpoint]
      exact (endpoint.met limit r).finish r

end Meeting

/-! ## 3. Faults of requests -/

/-- **What is wrong with a request is found before the store is asked.** Whatever is in the
place of the store, an answer that finds fault with a request is the answer to that request at
all times, from whatever is in the place of the store: nothing is asked for, and nothing
changes. -/
theorem request_faults_precede_store {limit : Nat} {now : Instant} {r : Request} {b : Backend}
    {x : b.State} {a : Response} (ha : ((answer ⟨limit, now⟩ r).runOn b x).1 = a)
    (hfault : a.status ∈ requestFaults) (later : Instant) :
    (answer ⟨limit, later⟩ r).command? = none ∧
    (∀ (b' : Backend) (y : b'.State), (answer ⟨limit, later⟩ r).runOn b' y = (a, y)) ∧
    ∀ repository : Repository, (answer ⟨limit, later⟩ r).run repository = (a, repository) := by
  obtain ⟨a', hsettled⟩ | hasked := answer_met limit r
  · simp only [hsettled] at ha ⊢
    obtain rfl : a' = a := ha
    exact ⟨rfl, fun _ _ => rfl, fun _ => rfl⟩
  · obtain ⟨c, next, hask, -, hreply⟩ := hasked now
    simp only [hask] at ha
    obtain rfl : next (b.perform x c).1 = a := ha
    exact absurd hfault (hreply _)

/-- An expression that cannot be read is refused, be the store out of order or not. -/
theorem request_faults_precede_store_hash :
    (firstFiled "5#5").1.status = 400 ∧
    ∀ later, (answer ⟨1000, later⟩ (filing "5#5")).command? = none ∧
      (∀ (b : Backend) (y : b.State),
        (answer ⟨1000, later⟩ (filing "5#5")).runOn b y = ((firstFiled "5#5").1, y)) ∧
      ∀ repository : Repository,
        (answer ⟨1000, later⟩ (filing "5#5")).run repository
          = ((firstFiled "5#5").1, repository) := by
  have hstatus : (firstFiled "5#5").1.status = 400 := by decide +kernel
  have hfirst : ((answer ⟨1000, oneMorning.now⟩ (filing "5#5")).runOn .repositories
      (.working .empty)).1 = (firstFiled "5#5").1 := by
    rw [Plan.runOn_repositories]
    rfl
  have hfault : (firstFiled "5#5").1.status ∈ requestFaults := by
    rw [hstatus]
    decide
  exact ⟨hstatus, request_faults_precede_store hfirst hfault⟩

end Http

end CalcJournal
