/-
CalcJournal.Proofs.Service.Run — a service that keeps one journal.

A client demands something of the journal, directly or by a request, and knows neither its
limit nor its clock: both come with the visit. A service has one limit, reads its clock at each
visit, and may be restarted between two of them. It remembers what it has settled, and with
what answer.

A run is a `Course`: each visit settles nothing and leaves the store alone, or it settles one
operation, which does one of the five things that an operation may do. What is true of all
courses is true of all runs (`course_run`).
-/
import CalcJournal.Proofs.Http.Status
import CalcJournal.Proofs.Journal.Effects
import CalcJournal.Proofs.Journal.Run
import Mathlib.Data.List.Induction

namespace CalcJournal

/-! ## 1. Demands -/

/-- What a client wants of the journal. -/
inductive Demand where
  | create (expression : String)
  | get (id : CalculationId)
  | history
  | search (text : String)
  | update (id : CalculationId) (calculation : Calculation)
  | delete (id : CalculationId)

/-- The operation that meets a demand. -/
def Demand.operation (context : Http.Context) : Demand → Operation
  | .create expression => .create context.limit context.now expression
  | .get id => .get id
  | .history => .history
  | .search text => .search text
  | .update id c => .update context.limit id c
  | .delete id => .delete id

namespace Demand

variable {d : Demand} {context : Http.Context} {limit : Nat}

/-- Only the demand to file an expression is met by filing it, under the rules there are. -/
theorem eq_of_operation_create {now : Instant} {expression : String}
    (h : d.operation context = .create limit now expression) :
    d = .create expression ∧ limit = context.limit ∧ now = context.now := by
  cases d <;> simp only [operation, Operation.create.injEq, reduceCtorEq] at h
  obtain ⟨rfl, rfl, rfl⟩ := h
  exact ⟨rfl, rfl, rfl⟩

theorem limit_of_operation_update {id : CalculationId} {c : Calculation}
    (h : d.operation context = .update limit id c) : limit = context.limit := by
  cases d <;> simp only [operation, Operation.update.injEq, reduceCtorEq] at h
  exact h.1.symm

end Demand

namespace Http

/-- What an endpoint wants of the journal on behalf of a request, if it can be read. -/
def Endpoint.demand? (r : Request) : Endpoint → Option Demand
  | .health => none
  | .history => some .history
  | .search segment => (readPredicate segment).toOption.map .search
  | .get segment => (readId segment).toOption.map .get
  | .create => (readBody Json.readRequest r).toOption.map .create
  | .update segment =>
    (readId segment).toOption.bind fun id =>
      (readBody Json.readCalculation r).toOption.map (.update id)
  | .delete segment => (readId segment).toOption.map .delete

/-- What a request wants of the journal, if it comes to that. -/
def Request.demand? (r : Request) : Option Demand :=
  match Route.ofPath? (Target.path r.target.toList) with
  | none => none
  | some route => (route.endpoint? r.method).bind (Endpoint.demand? r)

/-- What a demand leaves of a repository, if there is one. -/
def leaves (context : Context) (repository : Repository) : Option Demand → Repository
  | none => repository
  | some d => ((d.operation context).plan.run repository).2

/-- To respond with the answer of a journal is to leave what the journal leaves. -/
theorem run_respond_of_plan {α : Type}
    {f : Except JournalError α → Except JournalError Operation.Answer} {context : Context}
    {repository : Repository} {success : α → Response} {j : Journal α} {d : Demand}
    (h : (d.operation context).plan = j.map f) :
    ((respond success j).run repository).2 = leaves context repository (some d) := by
  rw [leaves, h, respond, Plan.run_map, Plan.run_map]

/-- An endpoint leaves what its demand leaves. -/
theorem Endpoint.run_answer (context : Context) (r : Request) (repository : Repository)
    (endpoint : Endpoint) : ((endpoint.answer context r).run repository).2
      = leaves context repository (endpoint.demand? r) := by
  cases endpoint with
  | health => rfl
  | history => exact run_respond_of_plan rfl
  | search segment =>
    rw [answer, demand?]
    cases readPredicate segment with
    | error p => rfl
    | ok text => exact run_respond_of_plan rfl
  | get segment =>
    rw [answer, demand?]
    cases readId segment with
    | error p => rfl
    | ok id => exact run_respond_of_plan rfl
  | create =>
    rw [answer, demand?]
    cases readBody Json.readRequest r with
    | error p => rfl
    | ok expression => exact run_respond_of_plan rfl
  | update segment =>
    rw [answer, demand?]
    cases readId segment with
    | error p => rfl
    | ok id =>
      cases readBody Json.readCalculation r with
      | error p => rfl
      | ok c => exact run_respond_of_plan rfl
  | delete segment =>
    rw [answer, demand?]
    cases readId segment with
    | error p => rfl
    | ok id => exact run_respond_of_plan rfl

/-- **A request leaves what its demand leaves.** -/
theorem run_answer (context : Context) (r : Request) (repository : Repository) :
    ((answer context r).run repository).2 = leaves context repository r.demand? := by
  rw [answer, Request.demand?]
  cases Route.ofPath? (Target.path r.target.toList) with
  | none => rfl
  | some route =>
    cases hendpoint : route.endpoint? r.method with
    | none => simp only [hendpoint]; rfl
    | some endpoint =>
      simp only [hendpoint, Option.bind_some, ← endpoint.run_answer context r repository]
      split
      · rw [Plan.run_map]
      · rfl

end Http

/-! ## 2. What has been settled -/

namespace Settled

/-- The id under which an expression was filed, if one was. -/
def filed? : Settled → Option CalculationId
  | ⟨.create .., .ok (.calculation c)⟩ => some c.id
  | _ => none

/-- The id of the calculation that was written over, if one was. -/
def rewritten? : Settled → Option CalculationId
  | ⟨.update _ id _, .ok _⟩ => some id
  | _ => none

/-- The id of the calculation that was erased, if one was. -/
def erased? : Settled → Option CalculationId
  | ⟨.delete id, .ok _⟩ => some id
  | _ => none

variable {o : Operation} {answer : Except JournalError Operation.Answer}

theorem filed?_of_isRead (h : o.isRead = true) : filed? ⟨o, answer⟩ = none := by
  cases o <;> first | rfl | simp [Operation.isRead] at h

theorem erased?_of_isRead (h : o.isRead = true) : erased? ⟨o, answer⟩ = none := by
  cases o <;> first | rfl | simp [Operation.isRead] at h

theorem filed?_of_refused (e : JournalError) : filed? ⟨o, .error e⟩ = none := by
  cases o <;> rfl

theorem erased?_of_refused (e : JournalError) : erased? ⟨o, .error e⟩ = none := by
  cases o <;> rfl

end Settled

/-! ## 3. Services -/

/-- What happens at a visit. -/
inductive Call where
  /-- A client demands something of the journal. -/
  | ask (demand : Demand)
  /-- A client sends a request. -/
  | send (request : Http.Request)
  /-- The service is restarted on the same database file. -/
  | restart

/-- What happens, and what the clock shows. -/
structure Visit where
  now : Instant
  call : Call

/-- The repository, and what has been settled, the earliest first. -/
structure Service where
  repository : Repository
  log : List Settled

namespace Visit

/-- The rules for a visit. -/
def context (limit : Nat) (v : Visit) : Http.Context := ⟨limit, v.now⟩

/-- What the visit demands, if anything. -/
def demand? (v : Visit) : Option Demand :=
  match v.call with
  | .ask d => some d
  | .send r => r.demand?
  | .restart => none

/-- What is left of a repository. -/
def leaves (limit : Nat) (v : Visit) (repository : Repository) : Repository :=
  match v.call with
  | .ask d => ((d.operation (v.context limit)).plan.run repository).2
  | .send r => ((Http.answer (v.context limit) r).run repository).2
  | .restart => repository.reopened

/-- The operation that is settled, with its answer. -/
def settled? (limit : Nat) (v : Visit) (repository : Repository) : Option Settled :=
  v.demand?.map fun d =>
    let o := d.operation (v.context limit)
    ⟨o, (o.plan.run repository).1⟩

end Visit

namespace Service

/-- A service on a database file that is opened for the first time. -/
def start : Service := ⟨.working (Store.opened none), []⟩

/-- The service after a visit. -/
def step (limit : Nat) (x : Service) (v : Visit) : Service :=
  ⟨v.leaves limit x.repository, x.log ++ (v.settled? limit x.repository).toList⟩

/-- The service after some visits. -/
def run (limit : Nat) (visits : List Visit) : Service := visits.foldl (step limit) start

theorem run_append_singleton (limit : Nat) (visits : List Visit) (v : Visit) :
    run limit (visits ++ [v]) = (run limit visits).step limit v := by
  simp [run]

/-! ## 4. Courses -/

/-- A course of visits, with the store that it leaves and what it has settled. -/
inductive Course (limit : Nat) : List Visit → Store → List Settled → Prop
  | start : Course limit [] .empty []
  | idle {visits : List Visit} {s : Store} {log : List Settled} {v : Visit}
      (h : Course limit visits s log) : Course limit (visits ++ [v]) s log
  | settle {visits : List Visit} {s t : Store} {log : List Settled} {v : Visit} {d : Demand}
      {answer : Except JournalError Operation.Answer} (h : Course limit visits s log)
      (hdemand : v.demand? = some d)
      (hdoes : (d.operation (v.context limit)).Does s answer t)
      (hentered : s.Entered t ((d.operation (v.context limit)).effect? answer)) :
      Course limit (visits ++ [v]) t (log ++ [⟨d.operation (v.context limit), answer⟩])

variable {limit : Nat}

/-- A visit settles nothing, or it settles the operation that meets its demand. -/
theorem step_cases (x : Service) (v : Visit) :
    (v.demand? = none ∧ (x.step limit v).log = x.log ∧
      ((x.step limit v).repository = x.repository ∨
        (x.step limit v).repository = x.repository.reopened)) ∨
    ∃ d, v.demand? = some d ∧
      x.step limit v = ⟨((d.operation (v.context limit)).plan.run x.repository).2,
        x.log ++ [⟨d.operation (v.context limit),
          ((d.operation (v.context limit)).plan.run x.repository).1⟩]⟩ := by
  obtain ⟨now, call⟩ := v
  cases call with
  | ask d => exact .inr ⟨d, rfl, rfl⟩
  | send r =>
    have hleft := Http.run_answer ⟨limit, now⟩ r x.repository
    cases hdemand : r.demand? with
    | none =>
      rw [hdemand] at hleft
      refine .inl ⟨hdemand, ?_, .inl hleft⟩
      simp [step, Visit.settled?, Visit.demand?, hdemand]
    | some d =>
      rw [hdemand] at hleft
      refine .inr ⟨d, hdemand, ?_⟩
      simp only [step, Visit.leaves, Visit.settled?, Visit.demand?, Visit.context, hdemand, hleft,
        Http.leaves, Option.map_some, Option.toList_some]
  | restart => exact .inl ⟨rfl, List.append_nil _, .inr rfl⟩

/-- **Every run is a course.** -/
theorem course_run (limit : Nat) (visits : List Visit) :
    ∃ s, (run limit visits).repository = .working s ∧
      Course limit visits s (run limit visits).log := by
  induction visits using List.reverseRecOn with
  | nil => exact ⟨.empty, rfl, .start⟩
  | append_singleton visits v ih =>
    obtain ⟨s, hs, hcourse⟩ := ih
    rw [run_append_singleton]
    rcases step_cases (run limit visits) v with ⟨-, hlog, hstore⟩ | ⟨d, hdemand, hstep⟩
    · rw [hlog]
      refine ⟨s, ?_, .idle hcourse⟩
      rcases hstore with hstore | hstore
      · rw [hstore, hs]
      · rw [hstore, hs]
        rfl
    · obtain ⟨t, ht, hdoes⟩ := (d.operation (v.context limit)).doing s
      obtain ⟨u, hu, hentered⟩ := (d.operation (v.context limit)).enters s
      obtain rfl : u = t := Repository.working.inj (hu.symm.trans ht)
      rw [hstep, hs]
      exact ⟨u, hu, .settle hcourse hdemand hdoes hentered⟩

/-- The store of a course keeps the ledger of what was settled. -/
theorem Course.keptBy {visits : List Visit} {s : Store} {log : List Settled}
    (h : Course limit visits s log) : (ledger log).KeptBy s := by
  induction h with
  | start => exact Ledger.keptBy_empty
  | idle _ ih => exact ih
  | settle _ _ _ hentered ih =>
    rw [ledger_append_singleton]
    exact ih.enter hentered

end Service

end CalcJournal
