/-
CalcJournal.Proofs.Journal.Effects — what one operation does, and what its checks have seen to.

An operation files a calculation, writes one over, erases one, reads, or is refused, and only
the first three leave another store (`Operation.Does`). What is filed has been read, and what
is written over has been looked at; neither is blank nor longer than the limit. The category
and the value of what is filed are those of its expression, but what is written over has those
that it was sent with.
-/
import CalcJournal.Proofs.Expression.Parsing
import CalcJournal.Proofs.Journal.Operation

namespace CalcJournal

/-! ## 1. What the checks see to -/

/-- A text is not blank when one of its characters is not. -/
theorem Text.not_allBlank_iff {cs : List Char} :
    ¬ allBlank cs = true ↔ ∃ c ∈ cs, isBlank c = false := by
  rw [Bool.not_eq_true, allBlank, List.all_eq_false]
  simp only [Bool.not_eq_true]

/-- An expression that is not blank and not longer than the limit. -/
structure Expression.Admitted (limit : Nat) (expression : String) : Prop where
  notBlank : ∃ c ∈ expression.toList, Text.isBlank c = false
  length_le : expression.length ≤ limit

/-- A calculation that was made of an expression at an instant. -/
structure Calculation.Evaluates (c : Calculation) (now : Instant) (expression : String) :
    Prop where
  expression_eq : c.expression = expression
  created_eq : c.created = now
  category_eq : c.category = Category.classify expression
  evaluate_eq : Expression.evaluate expression = .ok c.result

/-- An expression that has a value can be read. -/
theorem Expression.exists_parse_of_evaluate {s : String} {x : Binary64}
    (h : evaluate s = .ok x) : ∃ c, parse s = .ok c := by
  cases hparse : parse s with
  | ok c => exact ⟨c, rfl⟩
  | error e => simp [evaluate, hparse, Except.map] at h

/-- An expression that has a value is not blank: its first number has a digit or a point. -/
theorem Expression.notBlank_of_evaluate {s : String} {x : Binary64} (h : evaluate s = .ok x) :
    ∃ c ∈ s.toList, Text.isBlank c = false := by
  obtain ⟨c, hparse⟩ := exists_parse_of_evaluate h
  obtain ⟨d, hchars, -⟩ := derivation_of_parseChars hparse
  obtain ⟨ch, hmem, hdigit⟩ := d.first.someDigit
  refine ⟨ch, ?_, Text.isBlank_of_isDigit hdigit⟩
  have hfirst : ch ∈ d.first.chars := by
    unfold Grammar.Numeral.chars
    split
    · exact List.mem_cons_of_mem _ hmem
    · exact hmem
  rw [← hchars]
  exact List.mem_append_right _ (List.mem_append_left _ hfirst)

namespace Journal

variable {limit : Nat} {expression : String} {id : CalculationId} {c : Calculation}
  {repository : Repository}

/-- What has been filed is not longer than the limit. -/
theorem length_le_of_create {now : Instant} {filed : Calculation}
    (h : ((create limit now expression).run repository).1 = .ok filed) :
    expression.length ≤ limit := by
  refine Nat.le_of_not_lt fun hlong => ?_
  rw [create, assess, if_pos hlong] at h
  simp [Plan.run] at h

/-- What may be written over another calculation is neither blank nor too long. -/
theorem admitted_of_no_objection (h : objection? limit id c = none) :
    Expression.Admitted limit c.expression := by
  unfold objection? at h
  split at h
  · simp at h
  split at h
  · simp at h
  case isFalse hblank =>
  split at h
  · simp at h
  case isFalse hlong =>
  exact ⟨Text.not_allBlank_iff.1 hblank, Nat.le_of_not_lt hlong⟩

/-- Nothing is objected to a calculation whose expression was admitted. -/
theorem objection?_of_admitted (h : Expression.Admitted limit c.expression) :
    objection? limit c.id c = none := by
  rw [objection?, if_neg (Decidable.not_not.2 rfl), if_neg (Text.not_allBlank_iff.2 h.notBlank),
    if_neg (Nat.not_lt.2 h.length_le)]

/-- What has been written over was admitted. -/
theorem admitted_of_update {written : Calculation}
    (h : ((update limit id c).run repository).1 = .ok written) :
    Expression.Admitted limit c.expression := by
  cases hobjection : objection? limit id c with
  | none => exact admitted_of_no_objection hobjection
  | some e =>
    rw [update, hobjection] at h
    simp [Plan.run] at h

end Journal

/-! ## 2. What an operation does -/

namespace Operation

/-- The operations that only read. -/
def isRead : Operation → Bool
  | .get _ | .history | .search _ => true
  | .create .. | .update .. | .delete _ => false

/-- What an operation may answer and leave on a store that works. -/
inductive Does (s : Store) : Operation → Except JournalError Answer → Store → Prop
  | filed {limit : Nat} {now : Instant} {expression : String} {c : Calculation}
      (hnext : s.nextId? = some c.id) (fresh : ∀ q ∈ s.rows, q.id ≠ c.row.id)
      (hadmitted : Expression.Admitted limit expression) (hmade : c.Evaluates now expression) :
      Does s (.create limit now expression) (.ok (.calculation c.cut)) (s.push c.row fresh)
  | rewritten {limit : Nat} {c : Calculation} {row : Row} (hrow : s.row? c.id = some row)
      (hadmitted : Expression.Admitted limit c.expression) :
      Does s (.update limit c.id c) (.ok (.calculation c.cut)) (s.replace c.row)
  | erased {id : CalculationId} {row : Row} (hrow : s.row? id = some row) :
      Does s (.delete id) (.ok .deleted) (s.erase id)
  | read {o : Operation} {answer : Except JournalError Answer} (h : o.isRead = true) :
      Does s o answer s
  | refused {o : Operation} {e : JournalError} : Does s o (.error e) s

variable {s : Store}

/-- An operation does something, as a property of the operation. -/
def Doing (o : Operation) (s : Store) : Prop :=
  ∃ t, (o.plan.run (.working s)).2 = .working t ∧ o.Does s (o.plan.run (.working s)).1 t

theorem doing_create (limit : Nat) (now : Instant) (expression : String) :
    (create limit now expression).Doing s := by
  simp only [Doing, plan, Plan.run_map]
  rcases Journal.create_outcome limit now expression s with
    ⟨c, fresh, hnext, hcategory, hexpression, hcreated, hvalue, hrun⟩ | ⟨e, hrun⟩
  · have hlength := Journal.length_le_of_create (congrArg Prod.fst hrun)
    have hmade : c.Evaluates now expression := ⟨hexpression, hcreated, hcategory, hvalue⟩
    rw [hrun]
    exact ⟨_, rfl, .filed hnext fresh ⟨Expression.notBlank_of_evaluate hvalue, hlength⟩ hmade⟩
  · rw [hrun]
    exact ⟨s, rfl, .refused⟩

theorem doing_update (limit : Nat) (id : CalculationId) (c : Calculation) :
    (update limit id c).Doing s := by
  simp only [Doing, plan, Plan.run_map]
  rcases Journal.update_outcome limit id c s with ⟨row, rfl, hrow, -, hrun⟩ | ⟨e, hrun, -⟩
  · have hadmitted := Journal.admitted_of_update (congrArg Prod.fst hrun)
    rw [hrun]
    exact ⟨_, rfl, .rewritten hrow hadmitted⟩
  · rw [hrun]
    exact ⟨s, rfl, .refused⟩

theorem doing_delete (id : CalculationId) : (delete id).Doing s := by
  simp only [Doing, plan, Plan.run_map]
  rcases Journal.delete_outcome id s with ⟨row, hrow, hrun⟩ | ⟨e, hrun⟩
  · rw [hrun]
    exact ⟨_, rfl, .erased hrow⟩
  · rw [hrun]
    exact ⟨s, rfl, .refused⟩

/-- **Every operation does one of five things to a store that works.** -/
theorem doing (o : Operation) (s : Store) : o.Doing s := by
  cases o with
  | create limit now expression => exact doing_create limit now expression
  | get id => exact ⟨s, rfl, .read rfl⟩
  | history => exact ⟨s, rfl, .read rfl⟩
  | search text => exact ⟨s, rfl, .read rfl⟩
  | update limit id c => exact doing_update limit id c
  | delete id => exact doing_delete id

end Operation

end CalcJournal
