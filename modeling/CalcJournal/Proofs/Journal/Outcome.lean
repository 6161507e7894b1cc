/-
CalcJournal.Proofs.Journal.Outcome — how each use of the journal ends.

A use that writes ends in one of two ways on a store that works: it is refused, before
the store is asked or by the store, and the store is as it was; or it goes through, and
the store has changed in the one way that its lemma names. A use that reads leaves the
store as it is. Whether the store was asked at all is told by the plan (`Plan.command?`).
-/
import CalcJournal.Journal.Basic
import CalcJournal.Proofs.Store.Effects

namespace CalcJournal

/-! ## 1. Plans -/

namespace Plan

variable {α β : Type}

/-- The command that a plan asks, if it asks one. -/
def command? : Plan α → Option Command
  | .answer _ => none
  | .ask c _ => some c

@[simp] theorem command?_map (f : α → β) (p : Plan α) : (p.map f).command? = p.command? := by
  cases p <;> rfl

/-- A repository that fails stays as it is. -/
theorem run_failing (p : Plan α) (e : StoreError) : (p.run (.failing e)).2 = .failing e := by
  cases p <;> rfl

end Plan

namespace Journal

variable {limit : Nat} {expression : String} {id : CalculationId} {c : Calculation}

/-! ## 2. Checks -/

/-- A draft that passes has the category and the value of its expression. -/
theorem assess_eq_ok {category : Category} {value : Binary64}
    (h : assess limit expression = .ok (category, value)) :
    category = Category.classify expression ∧ Expression.evaluate expression = .ok value := by
  unfold assess at h
  split at h
  · simp at h
  · split at h
    · simp at h
    · rename_i v hv
      obtain ⟨rfl, rfl⟩ := Prod.mk.inj (Except.ok.inj h)
      exact ⟨rfl, hv⟩

/-- A calculation that may be written over another has its id. -/
theorem id_of_no_objection (h : objection? limit id c = none) : id = c.id := by
  unfold objection? at h
  split at h
  · simp at h
  · rename_i hid
    exact Decidable.not_not.1 hid

/-- An update asks for nothing, or for the calculation to be written over the one with its id. -/
theorem command?_update {limit : Nat} {id : CalculationId} {c : Calculation} {d : Command}
    (h : (update limit id c).command? = some d) : c.id = id ∧ d = .update c := by
  cases hobjection : objection? limit id c with
  | some e => simp [update, hobjection, Plan.command?] at h
  | none =>
    rw [update, hobjection] at h
    exact ⟨(id_of_no_objection hobjection).symm, (Option.some.inj h).symm⟩

/-- A draft whose expression can be read and is not too long passes. -/
theorem assess_of_valid {value : Binary64} (hlength : expression.length ≤ limit)
    (hvalue : Expression.evaluate expression = .ok value) :
    assess limit expression = .ok (Category.classify expression, value) := by
  rw [assess, if_neg (Nat.not_lt.2 hlength), hvalue]

/-! ## 3. Writing -/

/-- A draft that passes is handed to the store. -/
theorem run_create_of_assess {now : Instant} {category : Category} {value : Binary64}
    (h : assess limit expression = .ok (category, value)) (s : Store) :
    (create limit now expression).run (.working s) =
      ((s.create ⟨category, expression, now, value⟩).1.mapError JournalError.ofStoreError,
        .working (s.create ⟨category, expression, now, value⟩).2) := by
  rw [create, h]
  rfl

/-- A calculation to which nothing is objected is handed to the store. -/
theorem run_update_of_valid (h : objection? limit id c = none) (s : Store) :
    (update limit id c).run (.working s) =
      ((s.update c).1.mapError JournalError.ofStoreError, .working (s.update c).2) := by
  rw [update, h]
  rfl

theorem run_delete (id : CalculationId) (s : Store) : (delete id).run (.working s) =
    ((s.delete id).1.mapError JournalError.ofStoreError, .working (s.delete id).2) := rfl

/-- Filing an expression adds its row under the id after the last, or is refused. -/
theorem create_outcome (limit : Nat) (now : Instant) (expression : String) (s : Store) :
    (∃ (filed : Calculation) (fresh : ∀ q ∈ s.rows, q.id ≠ filed.row.id),
      s.nextId? = some filed.id ∧ filed.category = Category.classify expression ∧
      filed.expression = expression ∧ filed.created = now ∧
      Expression.evaluate expression = .ok filed.result ∧
      (create limit now expression).run (.working s)
        = (.ok filed.cut, .working (s.push filed.row fresh))) ∨
    ∃ e, (create limit now expression).run (.working s) = (.error e, .working s) := by
  cases hassess : assess limit expression with
  | error e =>
    refine .inr ⟨e, ?_⟩
    rw [create, hassess]
    rfl
  | ok draft =>
    obtain ⟨category, value⟩ := draft
    obtain ⟨hcategory, hvalue⟩ := assess_eq_ok hassess
    have hrun := @run_create_of_assess limit expression now category value hassess s
    rcases s.create_cases ⟨category, expression, now, value⟩ with
      ⟨id, fresh, hnext, hcreate⟩ | ⟨-, hcreate⟩
    · rw [hcreate] at hrun
      exact .inl ⟨_, fresh, hnext, hcategory, rfl, rfl, hvalue, hrun⟩
    · rw [hcreate] at hrun
      exact .inr ⟨_, hrun⟩

/-- Writing over a calculation replaces the row of its id, or is refused. Once the store has
been asked, only the want of a row is in the way. -/
theorem update_outcome (limit : Nat) (id : CalculationId) (c : Calculation) (s : Store) :
    (∃ row, id = c.id ∧ s.row? c.id = some row ∧
      (update limit id c).command? = some (.update c) ∧
      (update limit id c).run (.working s) = (.ok c.cut, .working (s.replace c.row))) ∨
    ∃ e, (update limit id c).run (.working s) = (.error e, .working s) ∧
      ∀ d, (update limit id c).command? = some (.update d) → s.row? d.id = none := by
  cases hobjection : objection? limit id c with
  | some e =>
    refine .inr ⟨e, ?_, ?_⟩
    · rw [update, hobjection]
      rfl
    · intro d hd
      simp [update, hobjection, Plan.command?] at hd
  | none =>
    have hasked : (update limit id c).command? = some (.update c) := by
      rw [update, hobjection]
      rfl
    have hrun := run_update_of_valid hobjection s
    rcases s.update_cases c with ⟨row, hrow, hupdate⟩ | ⟨hrow, hupdate⟩
    · rw [hupdate] at hrun
      exact .inl ⟨row, id_of_no_objection hobjection, hrow, hasked, hrun⟩
    · rw [hupdate] at hrun
      refine .inr ⟨_, hrun, ?_⟩
      intro d hd
      rw [hasked] at hd
      obtain rfl : c = d := by simpa using hd
      exact hrow

/-- Deleting a calculation erases the row of its id, or is refused for want of one. -/
theorem delete_outcome (id : CalculationId) (s : Store) :
    (∃ row, s.row? id = some row ∧
      (delete id).run (.working s) = (.ok (), .working (s.erase id))) ∨
    ∃ e, (delete id).run (.working s) = (.error e, .working s) := by
  have hrun := run_delete id s
  rcases s.delete_cases id with ⟨row, hrow, hdelete⟩ | ⟨-, hdelete⟩
  · rw [hdelete] at hrun
    exact .inl ⟨row, hrow, hrun⟩
  · rw [hdelete] at hrun
    exact .inr ⟨_, hrun⟩

/-! ## 4. Reading -/

/-- What is found under an id is what its row is read as. -/
theorem run_get (id : CalculationId) (s : Store) : (get id).run (.working s) =
    (match s.row? id with
      | none => .error (.notFound id)
      | some r => r.toCalculation.mapError JournalError.ofStoreError, .working s) := by
  simp only [get, Plan.run, Repository.perform, Store.perform, Store.find]
  cases s.row? id with
  | none => rfl
  | some r =>
    simp only
    cases r.toCalculation <;> rfl

/-- A search answers with what the store finds. -/
theorem run_search (text : String) (s : Store) : (search text).run (.working s) =
    ((s.search text).mapError JournalError.ofStoreError, .working s) := rfl

/-- The history is what the store lists. -/
theorem run_history (s : Store) :
    history.run (.working s) = (s.list.mapError JournalError.ofStoreError, .working s) := rfl

end Journal

end CalcJournal
