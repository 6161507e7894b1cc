/-
CalcJournal.Proofs.Http.Overwriting — how a request to write over a calculation is answered.

Three parts of the program have a say, one after the other: the segment and the body are read,
the journal looks at the calculation that was sent, and the store looks for the row. Each of
them turns a request away for reasons of its own, and some reasons share a status.
`Overwriting` lists the reasons in the order in which they count, each with all that has to be
in order before it is looked at, and the one case in which something is written over. One of
them always applies (`exists_overwriting`), and whichever applies is what the answer says
(`run_of_overwriting`).
-/
import CalcJournal.Proofs.Http.Intake
import CalcJournal.Proofs.Http.Readback
import CalcJournal.Proofs.Journal.Effects
import CalcJournal.Proofs.Store.Rewriting

namespace CalcJournal

namespace Http

/-! ## 1. The cases -/

/-- The row of a calculation's id has become that of the calculation as it was sent, with its
date cut to microseconds, and nothing else has changed. It is found, but for the sign of a zero. -/
structure WrittenOver (s t : Store) (c : Calculation) : Prop where
  replaced : Replaced s t c.id c
  row_eq : t.row? c.id = some
    { id := c.id
      category := c.category.label
      expression := c.expression
      created := c.created.toMicroseconds.text .microseconds
      result := Row.column c.result }
  others : ∀ id, id ≠ c.id → t.row? id = s.row? id
  found : (Journal.get c.id).run (.working t) = (.ok c.cut.unsigned, .working t)

/-- A request that sends a calculation to the place of an id. -/
structure Request.Sends (r : Request) (segment : List Char) (id : CalculationId)
    (c : Calculation) : Prop where
  segment_eq : segmentId? segment = some id
  carries : r.Carries Json.readCalculation c

/-- How a request to write over a calculation is answered, and what it leaves. -/
inductive Overwriting (limit : Nat) (r : Request) (segment : List Char) (s : Store) :
    Nat → Store → Prop
  /-- The segment stands for no id. -/
  | noId (h : segmentId? segment = none) : Overwriting limit r segment s 400 s
  /-- The body is refused. -/
  | badBody {id : CalculationId} {status : Nat} (segment_eq : segmentId? segment = some id)
      (h : BodyFault Json.readCalculation r status) : Overwriting limit r segment s status s
  /-- The calculation has another id. -/
  | otherId {id : CalculationId} {c : Calculation} (sends : r.Sends segment id c)
      (h : id ≠ c.id) : Overwriting limit r segment s 400 s
  /-- Its expression is blank. -/
  | blank {c : Calculation} (sends : r.Sends segment c.id c)
      (h : ∀ ch ∈ c.expression.toList, Text.isBlank ch = true) :
      Overwriting limit r segment s 422 s
  /-- Its expression is too long. -/
  | tooLong {c : Calculation} (sends : r.Sends segment c.id c)
      (notBlank : ∃ ch ∈ c.expression.toList, Text.isBlank ch = false)
      (h : limit < c.expression.length) : Overwriting limit r segment s 422 s
  /-- There is no row of the id. -/
  | absent {c : Calculation} (sends : r.Sends segment c.id c)
      (admitted : Expression.Admitted limit c.expression) (h : ∀ q ∈ s.rows, q.id ≠ c.id) :
      Overwriting limit r segment s 404 s
  /-- The calculation is written over. -/
  | writtenOver {t : Store} {c : Calculation} (sends : r.Sends segment c.id c)
      (admitted : Expression.Admitted limit c.expression) (h : WrittenOver s t c) :
      Overwriting limit r segment s 200 t

/-! ## 2. One of the cases applies -/

variable {limit : Nat} {context : Context} {r : Request} {segment : List Char} {s t : Store}
  {status : Nat}

/-- A calculation that is carried in a body is written as it is when it has been cut. -/
theorem Request.Carries.asWritten_cut {c : Calculation} (h : r.Carries Json.readCalculation c) :
    c.cut.unsigned.asWritten = c.cut.unsigned :=
  Calculation.asWritten_eq_self_iff.2
    (Instant.isRegular_toMicroseconds.2 (Json.isRegular_of_readCalculation h.read_eq))

/-- The row of an id is written over by the calculation that was sent to it. -/
theorem writtenOver_replace {c : Calculation} {row : Row}
    (carries : r.Carries Json.readCalculation c) (h : s.row? c.id = some row) :
    WrittenOver s (s.replace c.row) c := by
  have hrow : (s.replace c.row).row? c.id = some c.row := by
    rw [Store.row?_replace, Calculation.row_id, if_pos rfl, h, Option.map_some]
  have hfound := Journal.run_get_of_row? hrow
  rw [carries.asWritten_cut] at hfound
  refine ⟨⟨exists_row h, rfl, rfl⟩, hrow, ?_, hfound⟩
  intro id hid
  rw [Store.row?_replace, Calculation.row_id, if_neg hid]

theorem exists_overwriting (limit : Nat) (r : Request) (segment : List Char) (s : Store) :
    ∃ status t, Overwriting limit r segment s status t := by
  cases hid : segmentId? segment with
  | none => exact ⟨_, _, .noId hid⟩
  | some id =>
    rcases @readBody_cases _ Json.readCalculation r with ⟨c, carries⟩ | ⟨status, fault⟩
    · by_cases hsame : id = c.id
      · subst hsame
        have sends : r.Sends segment c.id c := ⟨hid, carries⟩
        by_cases hblank : Text.allBlank c.expression.toList = true
        · exact ⟨_, _, .blank sends (List.all_eq_true.1 hblank)⟩
        have notBlank := Text.not_allBlank_iff.1 hblank
        rcases Nat.lt_or_ge limit c.expression.length with long | short
        · exact ⟨_, _, .tooLong sends notBlank long⟩
        have admitted : Expression.Admitted limit c.expression := ⟨notBlank, short⟩
        cases hrow : s.row? c.id with
        | none => exact ⟨_, _, .absent sends admitted (Store.row?_eq_none_iff.1 hrow)⟩
        | some row =>
          exact ⟨_, _, .writtenOver sends admitted (writtenOver_replace carries hrow)⟩
      · exact ⟨_, _, .otherId ⟨hid, carries⟩ hsame⟩
    · exact ⟨_, _, .badBody hid fault⟩

/-! ## 3. The case that applies is the answer -/

/-- What is sent is handed to the journal. -/
theorem Request.Sends.answer_eq {id : CalculationId} {c : Calculation}
    (h : r.Sends segment id c) : (Endpoint.update segment).answer context r
      = respond (fun c => .json 200 (.calculation c)) (Journal.update context.limit id c) := by
  simp only [Endpoint.answer, readId_of_segmentId? h.segment_eq, h.carries.readBody_eq]

/-- A problem is answered under its status. -/
theorem exists_answer_problem {plan : Plan Response} {p : Problem} {x : Repository}
    (hrun : plan.run x = (.problem p, x)) (herror : p.IsError) (hstatus : p.status = status) :
    ∃ a, plan.run x = (a, x) ∧ a.status = status :=
  ⟨.problem p, hrun, herror.sentStatus_eq.trans hstatus⟩

/-- What the journal objects to is refused. -/
theorem Request.Sends.run_of_objection {id : CalculationId} {c : Calculation}
    {e : JournalError} (h : r.Sends segment id c)
    (hobjection : Journal.objection? context.limit id c = some e)
    (hstatus : (Problem.ofJournalError e).status = status) (x : Repository) :
    ∃ a, ((Endpoint.update segment).answer context r).run x = (a, x) ∧ a.status = status := by
  refine exists_answer_problem ?_ (isError_ofJournalError e) hstatus
  rw [h.answer_eq, run_respond, Journal.update, hobjection]
  rfl

/-- What is admitted is handed to the store. -/
theorem Request.Sends.run_of_admitted {c : Calculation} (h : r.Sends segment c.id c)
    (admitted : Expression.Admitted context.limit c.expression) :
    ((Endpoint.update segment).answer context r).run (.working s) =
      (match (s.update c).1 with
        | .ok c => .json 200 (.calculation c)
        | .error e => .problem (.ofJournalError (.ofStoreError e)), .working (s.update c).2) := by
  rw [h.answer_eq, run_respond,
    Journal.run_update_of_valid (Journal.objection?_of_admitted admitted)]
  cases (s.update c).1 <;> rfl

/-- A case in which the calculation is written over tells what is left. -/
theorem WrittenOver.update_eq {c : Calculation} (h : WrittenOver s t c) :
    s.update c = (.ok c.cut, t) := by
  obtain ⟨⟨q, hq, hid⟩, hrows, hlast⟩ := h.replaced
  have hrow := Store.mem_rows_iff.1 hq
  have hleft : s.replace c.row = t := Store.ext hrows.symm hlast.symm
  rw [Store.update_eq, ← hid, hrow, hleft]

/-- Each case tells the answer, and what it leaves. -/
theorem run_of_overwriting (h : Overwriting context.limit r segment s status t) :
    ∃ a, ((Endpoint.update segment).answer context r).run (.working s) = (a, .working t) ∧
      a.status = status := by
  cases h with
  | noId h =>
    obtain ⟨p, hp, hstatus⟩ := exists_readId_error h
    refine exists_answer_problem ?_ (isError_readId hp) hstatus
    rw [Endpoint.answer, hp]
    rfl
  | badBody segment_eq h =>
    obtain ⟨p, hp, hstatus⟩ := h.exists_readBody_error
    refine exists_answer_problem ?_ (isError_readBody hp) hstatus
    simp only [Endpoint.answer, readId_of_segmentId? segment_eq, hp]
    rfl
  | otherId sends h => exact sends.run_of_objection (if_pos h) rfl _
  | blank sends h =>
    refine sends.run_of_objection (e := Journal.blank) ?_ rfl _
    rw [Journal.objection?, if_neg (Decidable.not_not.2 rfl), Text.allBlank,
      if_pos (List.all_eq_true.2 h)]
  | @tooLong c sends notBlank h =>
    refine sends.run_of_objection (e := Journal.tooLong context.limit c.expression.length) ?_ rfl _
    rw [Journal.objection?, if_neg (Decidable.not_not.2 rfl),
      if_neg (Text.not_allBlank_iff.2 notBlank), if_pos h]
  | @absent c sends admitted h =>
    refine exists_answer_problem ?_ (isError_ofJournalError (.notFound c.id)) rfl
    rw [sends.run_of_admitted admitted]
    rcases s.update_cases c with ⟨row, hrow, -⟩ | ⟨-, hupdate⟩
    · rw [Store.row?_eq_none_iff.2 h] at hrow
      simp at hrow
    · rw [hupdate]
      rfl
  | writtenOver sends admitted h =>
    rw [sends.run_of_admitted admitted, h.update_eq]
    exact ⟨_, rfl, rfl⟩

/-! ## 4. Every request -/

/-- **A request to write over a calculation is answered by the first case that applies.** For
every request that puts something to the place of a calculation, every limit and every store
that works: the cases of `Overwriting` hold of the status of the answer and of what is left, and
of nothing else. -/
theorem put_end_to_end (hmethod : r.method = "PUT")
    (hroute : Route.ofPath? (Target.path r.target.toList) = some (.calculation segment))
    (context : Context) (s : Store) :
    ∃ a t, (answer context r).run (.working s) = (a, .working t) ∧
      ∀ status left, Overwriting context.limit r segment s status left ↔
        status = a.status ∧ left = t := by
  have hendpoint : (Route.calculation segment).endpoint? r.method = some (.update segment) := by
    rw [hmethod]
    rfl
  rw [answer_of_endpoint hroute hendpoint (by rw [hmethod]; decide)]
  obtain ⟨status, t, hcase⟩ := exists_overwriting context.limit r segment s
  obtain ⟨a, hrun, rfl⟩ := run_of_overwriting hcase
  refine ⟨a, t, hrun, fun status left => ⟨fun hother => ?_, ?_⟩⟩
  · -- two cases that apply to one request have one answer
    obtain ⟨a', hrun', rfl⟩ := run_of_overwriting hother
    rw [hrun] at hrun'
    obtain ⟨rfl, hleft⟩ := Prod.mk.inj hrun'
    exact ⟨rfl, (Repository.working.inj hleft).symm⟩
  · rintro ⟨rfl, rfl⟩
    exact hcase

/-- A calculation of blanks. -/
def blanks : Calculation :=
  ⟨⟨7, by decide, by decide⟩, .other, "   ", oneMorning.now, .nan⟩

/-- The request that puts blanks to the place of another id. -/
def misplacing : Request :=
  ⟨"PUT", "/calculations/8", some "application/json",
    Utf8.encode (Json.write (Json.calculationTokens blanks))⟩

/-- Four things are wrong with a calculation: its id is not that of its place, it is blank, it is
too long, and there is no row of its id. The first of them is what the answer says. -/
theorem put_end_to_end_misplacing :
    misplacing.method = "PUT" ∧
    Route.ofPath? (Target.path misplacing.target.toList) = some (.calculation ['8']) ∧
    ∃ a, (answer ⟨2, oneMorning.now⟩ misplacing).run (.working .empty) = (a, .working .empty) ∧
      a.status = 400 := by
  have hroute : Route.ofPath? (Target.path misplacing.target.toList)
      = some (.calculation ['8']) := by decide
  have hsends : misplacing.Sends ['8'] ⟨8, by decide, by decide⟩ blanks := by
    refine ⟨by decide +kernel, ⟨_, rfl, by decide +kernel⟩, by decide +kernel, ?_⟩
    have hregular : blanks.created.IsRegular := by decide
    rw [misplacing, Json.lexBytes_calculation, Json.readCalculation_tokens,
      Calculation.asWritten_eq_self_iff.2 hregular]
  have hcase : Overwriting 2 misplacing ['8'] .empty 400 .empty := .otherId hsends (by decide)
  obtain ⟨a, t, hrun, hcases⟩ :=
    put_end_to_end rfl hroute ⟨2, oneMorning.now⟩ .empty
  obtain ⟨hstatus, rfl⟩ := (hcases _ _).1 hcase
  exact ⟨rfl, hroute, a, hrun, hstatus.symm⟩

end Http

end CalcJournal
