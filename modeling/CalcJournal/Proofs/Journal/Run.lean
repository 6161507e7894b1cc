/-
CalcJournal.Proofs.Journal.Run — the store refines a ledger, however it is used.

Any number of clients hand in operations and have them settled in any order, and the
store is closed and opened again at any time, which loses what is still waiting. An
operation asks the store for one thing at most, so settling it is one step. What was
settled is remembered with its answer, and the ledger is made of nothing but that:
`ledger` is what the entries of the settled operations come to.

The invariant is that the store keeps the ledger of what was settled. It holds of the
empty store, `Operation.enters` preserves it, and opening a store again does not touch
it. The main result is `run_refines_ledger`.
-/
import CalcJournal.Proofs.Journal.Operation

namespace CalcJournal

/-! ## 1. Sessions -/

/-- The store of a database file when it is opened: one that is there already is left as
it is, and otherwise an empty one is made. -/
def Store.opened (file : Option Store) : Store := file.getD .empty

/-- A repository that is closed and opened again. -/
def Repository.reopened : Repository → Repository
  | .working s => .working (Store.opened (some s))
  | .failing e => .failing e

/-- An operation with the answer that it was given. -/
structure Settled where
  operation : Operation
  answer : Except JournalError Operation.Answer

/-- The entry that a settled operation has made. -/
def Settled.effect? (n : Settled) : Option Entry := n.operation.effect? n.answer

/-- The repository, the operation that each client waits for, and what has been settled so
far, the earliest first. -/
structure Session where
  repository : Repository
  waiting : Nat → Option Operation
  settled : List Settled

/-- What happens next. -/
inductive Event where
  /-- A client hands in an operation. -/
  | submit (client : Nat) (operation : Operation)
  /-- The operation that a client waits for is carried out and answered. -/
  | settle (client : Nat)
  /-- The store is closed and opened again, and whatever waits is lost. -/
  | reopen

namespace Session

/-- A database file that is opened for the first time, and nobody waiting. -/
def start : Session := ⟨.working (Store.opened none), fun _ => none, []⟩

/-- One client waits for another operation, or for none. -/
def await (x : Session) (client : Nat) (o? : Option Operation) : Nat → Option Operation :=
  fun k => if k = client then o? else x.waiting k

/-- The session after an event. -/
def step (x : Session) : Event → Session
  | .submit client o => { x with waiting := x.await client (some o) }
  | .settle client =>
    match x.waiting client with
    | none => x
    | some o =>
      let (answer, repository) := o.plan.run x.repository
      ⟨repository, x.await client none, x.settled ++ [⟨o, answer⟩]⟩
  | .reopen => { x with repository := x.repository.reopened, waiting := fun _ => none }

/-- The session after some events. -/
def run (events : List Event) : Session := events.foldl step start

end Session

/-! ## 2. The ledger of a session -/

/-- What stands under each id when these operations have been settled in this order. -/
def ledger (settled : List Settled) : Ledger :=
  settled.foldl (fun l n => l.enter n.effect?) .empty

theorem ledger_append_singleton (settled : List Settled) (n : Settled) :
    ledger (settled ++ [n]) = (ledger settled).enter n.effect? := by
  simp [ledger]

namespace Session

variable {x : Session}

/-- The store works, and it keeps the ledger of what was settled. -/
def Refines (x : Session) : Prop :=
  ∃ s, x.repository = .working s ∧ (ledger x.settled).KeptBy s

/-- What an event does to the store: it settles one operation at most, and the store
changes by the entry of that operation. -/
theorem step_working {s : Store} (hx : x.repository = .working s) (e : Event) :
    ∃ t, (x.step e).repository = .working t ∧
      (((x.step e).settled = x.settled ∧ t = s) ∨
        ∃ n, (x.step e).settled = x.settled ++ [n] ∧ s.Entered t n.effect?) := by
  cases e with
  | submit client o => exact ⟨s, hx, .inl ⟨rfl, rfl⟩⟩
  | settle client =>
    simp only [step]
    split
    case h_1 => exact ⟨s, hx, .inl ⟨rfl, rfl⟩⟩
    case h_2 o _ =>
      obtain ⟨t, hrun, hentered⟩ := o.enters s
      rw [hx]
      exact ⟨t, hrun, .inr ⟨⟨o, (o.plan.run (.working s)).1⟩, rfl, hentered⟩⟩
  | reopen =>
    refine ⟨s, ?_, .inl ⟨rfl, rfl⟩⟩
    simp only [step, hx]
    rfl

theorem Refines.step (h : x.Refines) (e : Event) : (x.step e).Refines := by
  obtain ⟨s, hx, hkept⟩ := h
  obtain ⟨t, ht, ⟨hsettled, rfl⟩ | ⟨n, hsettled, hentered⟩⟩ := step_working hx e
  · exact ⟨t, ht, hsettled ▸ hkept⟩
  · refine ⟨t, ht, ?_⟩
    rw [hsettled, ledger_append_singleton]
    exact hkept.enter hentered

theorem refines_run (events : List Event) : (run events).Refines := by
  -- by induction on the events, from any session that refines its ledger
  have hsteps : ∀ (events : List Event) (x : Session), x.Refines →
      (events.foldl Session.step x).Refines := by
    intro events
    induction events with
    | nil => exact fun _ h => h
    | cons e events ih => exact fun x h => ih (x.step e) (h.step e)
  exact hsteps events start ⟨.empty, rfl, Ledger.keptBy_empty⟩

end Session

/-! ## 3. What a run guarantees -/

/-- A row of another id is kept by a store exactly when it was kept before an entry. -/
theorem Store.Entered.mem_rows_iff {s t : Store} {e? : Option Entry} (h : s.Entered t e?)
    {r : Row} (hother : ∀ e, e? = some e → e.id ≠ r.id) : r ∈ t.rows ↔ r ∈ s.rows := by
  cases e? with
  | none =>
    obtain rfl : t = s := h
    rfl
  | some e =>
    have hrow := h r.id
    rw [if_neg fun hid => hother e rfl hid.symm] at hrow
    rw [Store.mem_rows_iff, Store.mem_rows_iff, hrow]

/-- **The store refines a ledger.** After every run of events, from a new database on,
whatever stands in the ledger of the settled operations is found under its id and reads as
it was written (`Calculation.ReadsAs`), and every other id is not found; the history holds
exactly what is found, each id once; and the next event, whichever it is, settles one
operation at most and leaves every row alone that is not the one that this operation has
written. The date that is found is the one that the text of the date shows. It is the date
itself, cut to microseconds, exactly when that does not lie in a leap second within a minute. -/
theorem Session.run_refines_ledger (events : List Event) :
    (∀ id : CalculationId, match ledger (run events).settled id with
      | none => (Journal.get id).run (run events).repository
          = (.error (.notFound id), (run events).repository)
      | some written => ∃ read, (Journal.get id).run (run events).repository
          = (.ok read, (run events).repository) ∧ read.ReadsAs written ∧ written.id = id ∧
          (read.created = written.created.toMicroseconds ↔ written.created.IsRegular)) ∧
    (∃ cs, Journal.history.run (run events).repository = (.ok cs, (run events).repository) ∧
      cs.Pairwise (fun a b => a.id ≠ b.id) ∧
      ∀ c, c ∈ cs ↔ ((Journal.get c.id).run (run events).repository).1 = .ok c) ∧
    (∀ e : Event, ∃ s t news, (run events).repository = .working s ∧
      ((run events).step e).repository = .working t ∧
      ((run events).step e).settled = (run events).settled ++ news ∧ news.length ≤ 1 ∧
      ∀ r : Row, (∀ n ∈ news, ∀ entry, n.effect? = some entry → entry.id ≠ r.id) →
        (r ∈ t.rows ↔ r ∈ s.rows)) := by
  obtain ⟨s, hx, hkept⟩ := refines_run events
  refine ⟨?_, ?_, ?_⟩
  · intro id
    have hget := hkept.run_get id
    rw [hx]
    cases hl : ledger (run events).settled id with
    | none =>
      rw [hl] at hget
      exact hget
    | some written =>
      rw [hl] at hget
      have hrow := hkept id
      rw [hl, Option.map_some] at hrow
      have hdate : written.kept.created = written.created.toMicroseconds ↔
          written.created.IsRegular :=
        Instant.asWritten_eq_self_iff.trans Instant.isRegular_toMicroseconds
      exact ⟨written.kept, hget, written.kept_readsAs, Store.id_of_row? hrow, hdate⟩
  · rw [hx]
    exact hkept.run_history
  · intro e
    obtain ⟨t, ht, ⟨hsettled, rfl⟩ | ⟨n, hsettled, hentered⟩⟩ := step_working hx e
    · refine ⟨t, t, [], hx, ht, by rw [hsettled, List.append_nil], by decide, ?_⟩
      intro r _
      rfl
    · refine ⟨s, t, [n], hx, ht, hsettled, Nat.le_refl 1, ?_⟩
      intro r hother
      exact hentered.mem_rows_iff fun entry hentry =>
        hother n (List.mem_singleton_self n) entry hentry

/-- An expression is filed in a leap second within a minute. -/
def filedInLeapSecond : List Event :=
  [.submit 0 (.create 9 leapWithinMinute "1"), .settle 0]

/-- What is filed in a leap second within a minute is found, but under another date. -/
theorem Session.get_ne_of_leapWithinMinute :
    ∃ written read : Calculation,
      ledger (run filedInLeapSecond).settled ⟨1, by decide, by decide⟩ = some written ∧
      (Journal.get ⟨1, by decide, by decide⟩).run (run filedInLeapSecond).repository
        = (.ok read, (run filedInLeapSecond).repository) ∧
      read.created ≠ written.created.toMicroseconds := by
  obtain ⟨s, hs, hkept⟩ := refines_run filedInLeapSecond
  have hfiled : (ledger (run filedInLeapSecond).settled ⟨1, by decide, by decide⟩).map
      Calculation.created = some leapWithinMinute := by decide +kernel
  obtain ⟨written, hledger, hcreated⟩ := Option.map_eq_some_iff.1 hfiled
  have hget := hkept.run_get ⟨1, by decide, by decide⟩
  rw [hledger] at hget
  have hdate : written.kept.created ≠ written.created.toMicroseconds := by
    simp only [Calculation.kept, Calculation.cut, Calculation.asWritten, hcreated]
    decide
  exact ⟨written, written.kept, hledger, hs ▸ hget, hdate⟩

end CalcJournal
