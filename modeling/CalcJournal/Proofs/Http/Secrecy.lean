/-
CalcJournal.Proofs.Http.Secrecy — what the store says about its failures is not told.

Every request that asks something of the store hands its failures on, and all failures of the
store's own are told as one and the same problem (`runOn_of_own`). Which of them it was, and
what it said, cannot be told from the answer, nor from the answers to many requests, whatever
each of them leaves behind (`serve_failing`).

A row that cannot be read is a failure of the store's own too, and its texts are in what the
store says about it. The answers that it causes are that same problem, so they are the same for
any other texts that cannot be read. All other answers are the same as well, for two stores
that differ in such texts alone will do so after any requests (`serve_veiled`).
-/
import CalcJournal.Proofs.Http.Precedence
import CalcJournal.Proofs.Store.Veiled

namespace CalcJournal

/-! ## 1. Failures of the store's own -/

/-- An error that is about the store: any but the want of a calculation. -/
def StoreError.Own (e : StoreError) : Prop := ∀ id, e ≠ .calculationNotFound id

theorem StoreError.Own.ofStoreError {e : StoreError} (h : e.Own) :
    JournalError.ofStoreError e = .storage e := by
  cases e with
  | calculationNotFound id => exact absurd rfl (h id)
  | connectionFailed | queryFailed | migrationFailed | unreadable => rfl

/-- What is said about a row that cannot be read is about the store. -/
theorem Row.own_of_toCalculation {q : Row} {e : StoreError} (h : q.toCalculation = .error e) :
    e.Own := by
  obtain ⟨message, rfl⟩ := error_of_toCalculation h
  intro id
  simp

namespace Backend

variable {b : Backend} {x : b.State}

/-- Every command fails, now and ever after, and each with some error of the store's own. -/
def Fails (b : Backend) (x : b.State) : Prop :=
  ∃ down : b.State → Prop, down x ∧ ∀ y, down y → ∀ c,
    (∃ e : StoreError, e.Own ∧ (b.perform y c).1 = .error e) ∧ down (b.perform y c).2

theorem Fails.perform (h : b.Fails x) (c : Command) :
    (∃ e : StoreError, e.Own ∧ (b.perform x c).1 = .error e) ∧ b.Fails (b.perform x c).2 := by
  obtain ⟨down, hx, hdown⟩ := h
  obtain ⟨he, hleft⟩ := hdown x hx c
  exact ⟨he, down, hleft, hdown⟩

/-- A repository that fails every command with one such error is a case of this. -/
theorem fails_repositories {e : StoreError} (he : e.Own) : repositories.Fails (.failing e) := by
  refine ⟨fun repository => repository = .failing e, rfl, ?_⟩
  rintro _ rfl c
  exact ⟨⟨e, he, rfl⟩, rfl⟩

end Backend

namespace Http

/-! ## 2. Requests one after the other -/

/-- What is told when the store has failed. -/
def unavailable : Response := .problem (.of 500 "Internal Server Error" Problem.storeDetail)

/-- A request, and what the clock shows when it comes in. -/
structure Arrival where
  now : Instant
  request : Request

/-- What is done for a request that has come in. -/
def Arrival.plan (limit : Nat) (v : Arrival) : Plan Response := answer ⟨limit, v.now⟩ v.request

/-- The answers to requests that come in one after the other, and what is left. -/
def serve (limit : Nat) (b : Backend) : b.State → List Arrival → List Response × b.State
  | x, [] => ([], x)
  | x, v :: arrivals =>
    let met := (v.plan limit).runOn b x
    let rest := serve limit b met.2 arrivals
    (met.1 :: rest.1, rest.2)

section Failures

variable {limit : Nat} {v : Arrival} {b : Backend} {x : b.State}

/-- **Every failure of the store's own is told in the same way.** -/
theorem runOn_of_own {c : Command} {e : StoreError} (hc : (v.plan limit).command? = some c)
    (he : e.Own) (hreply : (b.perform x c).1 = .error e) :
    ((v.plan limit).runOn b x).1 = v.request.finish unavailable := by
  unfold Arrival.plan at hc ⊢
  obtain ⟨a, hsettled⟩ | hasked := answer_met limit v.request
  · simp [hsettled, Plan.command?] at hc
  · obtain ⟨c', next, hask, hfailure, -⟩ := hasked v.now
    simp only [hask] at hc ⊢
    obtain rfl : c' = c := Option.some.inj hc
    show next (b.perform x c').1 = _
    rw [hreply, hfailure, he.ofStoreError]
    rfl

/-- To each request there is one answer as long as everything fails. -/
theorem runOn_failing (limit : Nat) (r : Request) :
    ∃ a, ∀ (now : Instant) (b : Backend) (x : b.State), b.Fails x →
      ((Arrival.plan limit ⟨now, r⟩).runOn b x).1 = a ∧
      b.Fails ((Arrival.plan limit ⟨now, r⟩).runOn b x).2 := by
  obtain ⟨a, hsettled⟩ | hasked := answer_met limit r
  · refine ⟨a, fun now b x hfails => ?_⟩
    simp only [Arrival.plan, hsettled]
    exact ⟨rfl, hfails⟩
  · refine ⟨r.finish unavailable, fun now b x hfails => ?_⟩
    obtain ⟨c, next, hask, -, -⟩ := hasked now
    have hplan : Arrival.plan limit ⟨now, r⟩ = .ask c next := hask
    obtain ⟨⟨e, he, hreply⟩, hleft⟩ := hfails.perform c
    refine ⟨runOn_of_own (by rw [hplan]; rfl) he hreply, ?_⟩
    rw [hplan]
    exact hleft

/-- To requests that come in one after the other there are the same answers as long as
everything fails. -/
theorem serve_failing (limit : Nat) (requests : List Request) :
    ∃ answers, ∀ (arrivals : List Arrival) (b : Backend) (x : b.State),
      arrivals.map Arrival.request = requests → b.Fails x →
      (serve limit b x arrivals).1 = answers := by
  induction requests with
  | nil =>
    refine ⟨[], fun arrivals b x hsame _ => ?_⟩
    rw [List.map_eq_nil_iff.1 hsame]
    rfl
  | cons r requests ih =>
    obtain ⟨a, ha⟩ := runOn_failing limit r
    obtain ⟨answers, hanswers⟩ := ih
    refine ⟨a :: answers, fun arrivals b x hsame hfails => ?_⟩
    obtain ⟨⟨now, r⟩, arrivals, rfl, rfl, hrest⟩ := List.map_eq_cons_iff.1 hsame
    obtain ⟨hanswer, hleft⟩ := ha now b x hfails
    rw [serve, hanswer, hanswers arrivals b _ hrest hleft]

end Failures

/-! ## 3. Rows that cannot be read -/

section Veils

variable {limit : Nat} {v : Arrival} {s t : Store}

/-- The answer to a request is what the reading of a row has come to. -/
def Arrival.CausedBy (limit : Nat) (v : Arrival) (s : Store) (q : Row) : Prop :=
  ∃ c, (v.plan limit).command? = some c ∧ s.Stumbles c q

/-- **What a row that cannot be read causes is told like any other failure.** -/
theorem run_of_causedBy {q : Row} (h : v.CausedBy limit s q) :
    (v.plan limit).run (.working s) = (v.request.finish unavailable, .working s) := by
  obtain ⟨c, hc, hstumbles⟩ := h
  have hleft := Store.perform_of_stumbles hstumbles
  obtain ⟨-, e, he, hreply⟩ := hstumbles
  have hanswer : ((v.plan limit).runOn .repositories (.working s)).1
      = v.request.finish unavailable :=
    runOn_of_own hc (Row.own_of_toCalculation he) hreply
  rw [Plan.runOn_repositories] at hanswer
  refine Prod.ext hanswer ?_
  -- the command that stumbled was the one that the request asked
  cases hplan : v.plan limit with
  | answer a => rfl
  | ask c' next =>
    rw [hplan] at hc
    obtain rfl : c' = c := Option.some.inj hc
    exact congrArg Repository.working hleft

/-- Requests that come in one after the other leave two veiled stores veiled. -/
theorem serve_veiled (h : s.Veiled t) (arrivals : List Arrival) :
    ∃ s' t' : Store, (serve limit .repositories (.working s) arrivals).2 = .working s' ∧
      (serve limit .repositories (.working t) arrivals).2 = .working t' ∧ s'.Veiled t' := by
  induction arrivals generalizing s t with
  | nil => exact ⟨s, t, rfl, rfl, h⟩
  | cons v arrivals ih =>
    simp only [serve]
    cases v.plan limit with
    | answer a => exact ih h
    | ask c next => exact ih (h.perform c)

/-- Two stores cannot be told from each other by a request. Unless it is a search, it is answered
by rows that cannot be read from both of them or from neither; and when it is from neither, the
answer is the same. -/
structure Indistinct (limit : Nat) (v : Arrival) (s t : Store) : Prop where
  caused_iff : (∀ text, (v.plan limit).command? ≠ some (.search text)) →
    ((∃ q, v.CausedBy limit s q) ↔ ∃ q, v.CausedBy limit t q)
  answer_eq : (∀ q, ¬ v.CausedBy limit s q) → (∀ q, ¬ v.CausedBy limit t q) →
    ((v.plan limit).run (.working s)).1 = ((v.plan limit).run (.working t)).1

/-- Veiled stores cannot be told from each other. -/
theorem indistinct_of_veiled (h : s.Veiled t) (v : Arrival) : Indistinct limit v s t := by
  cases hplan : v.plan limit with
  | answer a =>
    refine ⟨fun _ => ?_, fun _ _ => ?_⟩
    · simp [Arrival.CausedBy, hplan, Plan.command?]
    · rw [hplan]
      rfl
  | ask c next =>
    -- both stores are asked the same command, so it is enough to compare what becomes of it
    have hcaused : ∀ (u : Store) (q : Row), v.CausedBy limit u q ↔ u.Stumbles c q := by
      intro u q
      simp [Arrival.CausedBy, hplan, Plan.command?]
    refine ⟨fun hsearch => ?_, fun hs ht => ?_⟩
    · simp only [hcaused]
      refine h.stumbles_iff fun text htext => hsearch text ?_
      exact (congrArg Plan.command? hplan).trans (congrArg some htext)
    · simp only [hcaused] at hs ht
      rw [hplan]
      exact congrArg next (h.reply_eq hs ht)

end Veils

/-! ## 4. What is not told -/

/-- **What the store says about its failures is not told.** To the same requests, at whatever
times, there are the same answers from any two backends that fail every command, each time with
any error of the store's own. Whatever a row that cannot be read causes is answered in that same
way. And two stores that differ only behind the ids of such rows cannot be told from each other
by any request, after any others. -/
theorem store_detail_withheld (limit : Nat) :
    (∀ (b b' : Backend) (x : b.State) (y : b'.State) (arrivals arrivals' : List Arrival),
      b.Fails x → b'.Fails y → arrivals.map Arrival.request = arrivals'.map Arrival.request →
      (serve limit b x arrivals).1 = (serve limit b' y arrivals').1) ∧
    (∀ (s : Store) (v : Arrival) (q : Row), v.CausedBy limit s q →
      (v.plan limit).run (.working s) = (v.request.finish unavailable, .working s)) ∧
    ∀ (s t : Store) (arrivals : List Arrival), s.Veiled t → ∃ s' t' : Store,
      (serve limit .repositories (.working s) arrivals).2 = .working s' ∧
      (serve limit .repositories (.working t) arrivals).2 = .working t' ∧
      ∀ v, Indistinct limit v s' t' := by
  refine ⟨?_, fun s v q => run_of_causedBy, ?_⟩
  · intro b b' x y arrivals arrivals' hx hy hsame
    obtain ⟨answers, hanswers⟩ := serve_failing limit (arrivals'.map Arrival.request)
    rw [hanswers arrivals b x hsame hx, hanswers arrivals' b' y rfl hy]
  · intro s t arrivals h
    obtain ⟨s', t', hs, ht, hveiled⟩ := @serve_veiled limit s t h arrivals
    exact ⟨s', t', hs, ht, indistinct_of_veiled hveiled⟩

/-- A row that cannot be read, because it names no category. -/
def scrawl (id : CalculationId) (text : String) : Row := ⟨id, text, "1", text, none⟩

/-- A store that holds nothing else. -/
def scrawled (id : CalculationId) (text : String) : Store :=
  Store.empty.push (scrawl id text) (by simp [Store.empty])

theorem unreadable_scrawl (id : CalculationId) (text : String)
    (h : Category.ofLabel? text = none) :
    (scrawl id text).toCalculation = .error (.unreadable (Category.unknownMessage text)) := by
  simp only [Row.toCalculation, scrawl, h]

/-- The history is asked for, and then the first calculation. -/
def asks : List Arrival :=
  [⟨oneMorning.now, asking "/calculations/history"⟩, ⟨oneMorning.now, asking "/calculations/1"⟩]

/-- It is not told what failed, nor what is written in a row that cannot be read. -/
theorem store_detail_withheld_scrawl :
    let first : CalculationId := ⟨1, by decide, by decide⟩
    (serve 9 .repositories (.failing (.connectionFailed "no such file")) asks).1
      = (serve 9 .repositories (.failing (.migrationFailed "2" "no such table")) asks).1 ∧
    (∀ v ∈ asks, (v.plan 9).run (.working (scrawled first "scrawl"))
      = (unavailable, .working (scrawled first "scrawl"))) ∧
    ∃ s t : Store,
      (serve 9 .repositories (.working (scrawled first "scrawl")) asks).2 = .working s ∧
      (serve 9 .repositories (.working (scrawled first "blot")) asks).2 = .working t ∧
      ∀ v, Indistinct 9 v s t := by
  intro first
  obtain ⟨hfailing, hcaused, hveiled⟩ := store_detail_withheld 9
  have hscrawl := unreadable_scrawl first "scrawl" (by decide)
  have hblot := unreadable_scrawl first "blot" (by decide)
  refine ⟨?_, ?_, hveiled _ _ asks ⟨.cons (.inr ⟨rfl, ⟨_, hscrawl⟩, ⟨_, hblot⟩⟩) .nil, rfl⟩⟩
  · refine hfailing _ _ _ _ asks asks ?_ ?_ rfl
    · exact Backend.fails_repositories fun id => by simp
    · exact Backend.fails_repositories fun id => by simp
  · have hmem : scrawl first "scrawl" ∈ (scrawled first "scrawl").rows := by
      simp [scrawled, Store.push]
    have hrow := Store.mem_rows_iff.1 hmem
    intro v hv
    rcases List.mem_cons.1 hv with rfl | hv
    · obtain ⟨q, hq⟩ := Store.exists_stumbles_list.2 ⟨_, hmem, _, hscrawl⟩
      exact hcaused _ _ q ⟨.list, rfl, hq⟩
    · obtain ⟨q, hq⟩ := Store.exists_stumbles_find.2 ⟨_, hrow, _, hscrawl⟩
      rw [List.mem_singleton.1 hv]
      exact hcaused _ _ q ⟨_, rfl, hq⟩

end Http

end CalcJournal
