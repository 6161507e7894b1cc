/-
CalcJournal.Proofs.Journal.Operation — what one use of the journal does to the store.

An `Operation` is one of the six uses with all that it is given, the clock reading of a
new expression included. Whether it has written anything can be told from its answer
alone: an answer that is no refusal makes one `Entry`, under the id that was given to a
new calculation or that was asked for, and all else makes none.

A `Ledger` says what stands under each id when entries have been made one after the
other. `Operation.enters` is the step of the refinement: whatever the operation and
the store, the store changes by the entry, which concerns one row, and by nothing else.
-/
import CalcJournal.Proofs.Journal.Outcome

namespace CalcJournal

/-! ## 1. Operations -/

/-- One use of the journal. -/
inductive Operation where
  | create (limit : Nat) (now : Instant) (expression : String)
  | get (id : CalculationId)
  | history
  | search (text : String)
  | update (limit : Nat) (id : CalculationId) (calculation : Calculation)
  | delete (id : CalculationId)

namespace Operation

/-- What an operation yields when it succeeds. -/
inductive Answer where
  | calculation (c : Calculation)
  | calculations (cs : List Calculation)
  | deleted

/-- What is done for an operation. -/
def plan : Operation → Journal Answer
  | .create limit now expression =>
    (Journal.create limit now expression).map (Except.map .calculation)
  | .get id => (Journal.get id).map (Except.map .calculation)
  | .history => Journal.history.map (Except.map .calculations)
  | .search text => (Journal.search text).map (Except.map .calculations)
  | .update limit id c => (Journal.update limit id c).map (Except.map .calculation)
  | .delete id => (Journal.delete id).map (Except.map fun _ => .deleted)

end Operation

/-! ## 2. Entries and ledgers -/

/-- What a write leaves under an id: a calculation, or nothing. -/
structure Entry where
  id : CalculationId
  calculation? : Option Calculation

/-- The entry that an operation with this answer has made. A new calculation stands under
the id that its answer names, with the category and the value of the expression that was
sent; a calculation that was written over stands as it was sent. -/
def Operation.effect? : Operation → Except JournalError Operation.Answer → Option Entry
  | .create _ now expression, .ok (.calculation filed) =>
    (Expression.evaluate expression).toOption.map fun value =>
      ⟨filed.id, some ⟨filed.id, Category.classify expression, expression, now, value⟩⟩
  | .update _ _ c, .ok _ => some ⟨c.id, some c⟩
  | .delete id, .ok _ => some ⟨id, none⟩
  | _, _ => none

/-- The calculation that stands under each id, if there is one. -/
abbrev Ledger : Type := CalculationId → Option Calculation

namespace Ledger

/-- The ledger in which nothing stands. -/
def empty : Ledger := fun _ => none

/-- The ledger when an entry has been made, if there is one to make. -/
def enter (l : Ledger) : Option Entry → Ledger
  | none => l
  | some e => fun id => if id = e.id then e.calculation? else l id

/-- A store keeps a ledger when its rows are those of the calculations in the ledger. -/
def KeptBy (l : Ledger) (s : Store) : Prop := ∀ id, s.row? id = (l id).map Calculation.row

end Ledger

/-! ## 3. What an operation does to the rows -/

/-- The rows of a store after an entry: that of its id as the entry says, all others as
before; without an entry, the store itself. -/
def Store.Entered (s t : Store) : Option Entry → Prop
  | none => t = s
  | some e => ∀ id, t.row? id =
      if id = e.id then e.calculation?.map Calculation.row else s.row? id

namespace Operation

/-- An operation leaves a store that has changed by the entry that its answer tells. -/
def Enters (o : Operation) (s : Store) : Prop :=
  ∃ t, (o.plan.run (.working s)).2 = .working t ∧
    s.Entered t (o.effect? (o.plan.run (.working s)).1)

/-- Filing an expression makes an entry under an id of its own. -/
theorem enters_create (limit : Nat) (now : Instant) (expression : String) (s : Store) :
    (create limit now expression).Enters s := by
  simp only [Enters, plan, Plan.run_map]
  rcases Journal.create_outcome limit now expression s with
    ⟨filed, fresh, -, hcategory, hexpression, hcreated, hvalue, hrun⟩ | ⟨e, hrun⟩
  · rw [hrun]
    refine ⟨_, rfl, ?_⟩
    have heffect : (create limit now expression).effect? (.ok (.calculation filed.cut))
        = some ⟨filed.id, some filed⟩ := by
      rw [effect?, hvalue, ← hcategory, ← hcreated]
      subst hexpression
      rfl
    show s.Entered _ ((create limit now expression).effect? (.ok (.calculation filed.cut)))
    rw [heffect]
    intro i
    rw [Store.row?_push]
    rfl
  · rw [hrun]
    exact ⟨s, rfl, rfl⟩

/-- Writing over a calculation makes an entry under its id, or is refused. -/
theorem enters_update (limit : Nat) (id : CalculationId) (c : Calculation) (s : Store) :
    (update limit id c).Enters s := by
  simp only [Enters, plan, Plan.run_map]
  rcases Journal.update_outcome limit id c s with ⟨row, -, hrow, -, hrun⟩ | ⟨e, hrun, -⟩
  · rw [hrun]
    refine ⟨_, rfl, ?_⟩
    intro i
    rw [Store.row?_replace, Calculation.row_id]
    split
    case isTrue hid => rw [hid, hrow]; rfl
    case isFalse => rfl
  · rw [hrun]
    exact ⟨s, rfl, rfl⟩

/-- Deleting a calculation leaves nothing under its id, or is refused. -/
theorem enters_delete (id : CalculationId) (s : Store) : (delete id).Enters s := by
  simp only [Enters, plan, Plan.run_map]
  rcases Journal.delete_outcome id s with ⟨row, -, hrun⟩ | ⟨e, hrun⟩
  · rw [hrun]
    refine ⟨_, rfl, ?_⟩
    intro i
    rw [Store.row?_erase]
    rfl
  · rw [hrun]
    exact ⟨s, rfl, rfl⟩

/-- Every operation changes the rows by the entry that its answer tells, and by nothing
else. -/
theorem enters (o : Operation) (s : Store) : o.Enters s := by
  cases o with
  | create limit now expression => exact enters_create limit now expression s
  | get id => exact ⟨s, rfl, rfl⟩
  | history => exact ⟨s, rfl, rfl⟩
  | search text => exact ⟨s, rfl, rfl⟩
  | update limit id c => exact enters_update limit id c s
  | delete id => exact enters_delete id s

end Operation

/-! ## 4. What a store that keeps a ledger answers -/

namespace Ledger

variable {l : Ledger} {s t : Store}

theorem keptBy_empty : empty.KeptBy Store.empty := fun _ => rfl

theorem KeptBy.enter (h : l.KeptBy s) {e? : Option Entry} (hentered : s.Entered t e?) :
    (l.enter e?).KeptBy t := by
  cases e? with
  | none =>
    obtain rfl : t = s := hentered
    exact h
  | some e =>
    intro id
    rw [hentered id]
    simp only [Ledger.enter]
    split
    · rfl
    · exact h id

/-- Every row of a store that keeps a ledger is that of a calculation in the ledger. -/
theorem KeptBy.mem_rows (h : l.KeptBy s) {r : Row} :
    r ∈ s.rows ↔ ∃ c, l r.id = some c ∧ c.row = r := by
  rw [Store.mem_rows_iff, h r.id]
  cases l r.id with
  | none => simp
  | some c => simp

/-- What stands in the ledger is found, as the store keeps it, and nothing else is. -/
theorem KeptBy.run_get (h : l.KeptBy s) (id : CalculationId) :
    (Journal.get id).run (.working s) =
      (match l id with
        | none => .error (.notFound id)
        | some c => .ok c.kept, .working s) := by
  rw [Journal.run_get, h id]
  cases l id with
  | none => rfl
  | some c =>
    simp only [Option.map_some, Row.toCalculation_row]
    rfl

/-- The history holds what stands in the ledger, as the store keeps it, each id once. -/
theorem KeptBy.run_history (h : l.KeptBy s) :
    ∃ cs, Journal.history.run (.working s) = (.ok cs, .working s) ∧
      cs.Pairwise (fun a b => a.id ≠ b.id) ∧
      ∀ c, c ∈ cs ↔ ((Journal.get c.id).run (.working s)).1 = .ok c := by
  have hreadable : ∀ r ∈ s.rows, ∃ c, r.toCalculation = .ok c := by
    intro r hr
    obtain ⟨c, -, rfl⟩ := h.mem_rows.1 hr
    exact ⟨c.kept, Row.toCalculation_row c⟩
  obtain ⟨cs, hread, hdistinct, hmem⟩ := Store.read_listing hreadable fun _ => true
  refine ⟨cs, ?_, hdistinct, ?_⟩
  · rw [Journal.run_history, Store.list, hread]
    rfl
  · intro c
    rw [hmem, h.run_get]
    constructor
    · rintro ⟨r, hr, -, hc⟩
      obtain ⟨d, hd, rfl⟩ := h.mem_rows.1 hr
      rw [Row.id_of_toCalculation hc, hd]
      rw [Row.toCalculation_row] at hc
      exact congrArg Except.ok (Except.ok.inj hc)
    · -- what is found under an id is what a row with that id is read as
      intro hget
      cases hl : l c.id with
      | none => simp [hl] at hget
      | some d =>
        rw [hl] at hget
        have hrow := h c.id
        rw [hl, Option.map_some] at hrow
        have hid := Store.id_of_row? hrow
        refine ⟨d.row, Store.mem_rows_iff.2 (by rw [hid, hrow]), rfl, ?_⟩
        rw [Row.toCalculation_row]
        exact congrArg Except.ok (Except.ok.inj hget)

end Ledger

end CalcJournal
