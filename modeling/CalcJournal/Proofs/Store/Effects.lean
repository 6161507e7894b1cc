/-
CalcJournal.Proofs.Store.Effects — what each command does to the rows.

A row is in the store exactly when it is found under its id, so a store is what
`Store.row?` says of every id. A write either goes through, and then one lemma for each
of the three says which store is left, or it is refused and leaves the store as it was.
A list is read row by row, in whatever order.
-/
import CalcJournal.Proofs.Store.Row
import CalcJournal.Store.Repository

namespace CalcJournal

namespace Store

variable {s : Store} {r : Row} {id : CalculationId}

/-! ## 1. Rows and ids -/

theorem id_of_row? (h : s.row? id = some r) : r.id = id := by
  simpa using List.find?_some h

/-- Among rows with different ids, every row is found under its id. -/
theorem find?_of_mem {rows : List Row} (hdistinct : rows.Pairwise fun a b => a.id ≠ b.id)
    (hr : r ∈ rows) : rows.find? (fun q => q.id = r.id) = some r := by
  induction rows with
  | nil => simp at hr
  | cons q rows ih =>
    obtain ⟨hq, hrows⟩ := List.pairwise_cons.1 hdistinct
    rcases List.mem_cons.1 hr with rfl | hr
    · simp
    · simp [hq r hr, ih hrows hr]

/-- A row is kept exactly when it is found under its id. -/
theorem mem_rows_iff : r ∈ s.rows ↔ s.row? r.id = some r := by
  constructor
  · intro hr
    exact find?_of_mem s.distinct hr
  · intro h
    exact List.mem_of_find?_eq_some h

/-- There is no row of an id exactly when no row has that id. -/
theorem row?_eq_none_iff : s.row? id = none ↔ ∀ q ∈ s.rows, q.id ≠ id := by
  rw [row?, List.find?_eq_none]
  simp only [decide_eq_true_eq, ne_eq]

/-! ## 2. Writes that go through, and writes that are refused -/

/-- Filing a draft gives it the id after the last, unless there is none. -/
theorem create_cases (s : Store) (d : Draft) :
    (∃ (id : CalculationId) (fresh : ∀ q ∈ s.rows, q.id ≠ (d.withId id).row.id),
      s.nextId? = some id ∧
      s.create d = (.ok (d.withId id).cut, s.push (d.withId id).row fresh)) ∨
    (s.nextId? = none ∧ s.create d = (.error full, s)) := by
  unfold create
  split
  case h_1 hnone => exact .inr ⟨hnone, rfl⟩
  case h_2 id hnext => exact .inl ⟨id, fresh_of_nextId? hnext, hnext, rfl⟩

/-- Writing over a calculation needs a row with its id. -/
theorem update_cases (s : Store) (c : Calculation) :
    (∃ r, s.row? c.id = some r ∧ s.update c = (.ok c.cut, s.replace c.row)) ∨
    (s.row? c.id = none ∧ s.update c = (.error (.calculationNotFound c.id), s)) := by
  unfold update
  split
  case h_1 hnone => exact .inr ⟨hnone, rfl⟩
  case h_2 r hsome => exact .inl ⟨r, hsome, rfl⟩

/-- Deleting a calculation needs a row with its id. -/
theorem delete_cases (s : Store) (id : CalculationId) :
    (∃ r, s.row? id = some r ∧ s.delete id = (.ok (), s.erase id)) ∨
    (s.row? id = none ∧ s.delete id = (.error (.calculationNotFound id), s)) := by
  unfold delete
  split
  case h_1 hnone => exact .inr ⟨hnone, rfl⟩
  case h_2 r hsome => exact .inl ⟨r, hsome, rfl⟩

/-! ## 3. Lists -/

/-- Rows that can all be read are read one by one, in order. -/
theorem mapM_toCalculation {rows : List Row}
    (h : ∀ r ∈ rows, ∃ c, r.toCalculation = .ok c) :
    ∃ cs, rows.mapM Row.toCalculation = .ok cs ∧
      cs.map Calculation.id = rows.map Row.id ∧
      ∀ c, c ∈ cs ↔ ∃ r ∈ rows, r.toCalculation = .ok c := by
  induction rows with
  | nil => exact ⟨[], rfl, rfl, by simp⟩
  | cons q rows ih =>
    obtain ⟨c, hc⟩ := h q (by simp)
    obtain ⟨cs, hread, hids, hmem⟩ := ih fun r hr => h r (List.mem_cons_of_mem q hr)
    refine ⟨c :: cs, ?_, ?_, ?_⟩
    · rw [List.mapM_cons, hc, hread]
      rfl
    · rw [List.map_cons, List.map_cons, hids, Row.id_of_toCalculation hc]
    · intro d
      simp only [List.mem_cons, hmem, exists_eq_or_imp, hc, Except.ok.injEq]
      exact or_congr_left eq_comm

theorem mem_listing {p : Row → Bool} : r ∈ s.listing p ↔ r ∈ s.rows ∧ p r = true := by
  rw [listing, List.mem_mergeSort, List.mem_filter]

theorem listing_distinct (p : Row → Bool) :
    (s.listing p).Pairwise fun a b => a.id ≠ b.id := by
  have hperm := List.mergeSort_perm (s.rows.filter p) Row.listedBefore
  exact (hperm.pairwise_iff fun h => Ne.symm h).2 (s.distinct.filter p)

/-- When every row can be read, a listing is read as the calculations of its rows, each
under another id. -/
theorem read_listing (h : ∀ r ∈ s.rows, ∃ c, r.toCalculation = .ok c) (p : Row → Bool) :
    ∃ cs, (s.listing p).mapM Row.toCalculation = .ok cs ∧
      cs.Pairwise (fun a b => a.id ≠ b.id) ∧
      ∀ c, c ∈ cs ↔ ∃ r ∈ s.rows, p r = true ∧ r.toCalculation = .ok c := by
  obtain ⟨cs, hread, hids, hmem⟩ :=
    mapM_toCalculation fun r hr => h r (mem_listing.1 hr).1
  refine ⟨cs, hread, ?_, ?_⟩
  · -- both lists have the same ids, so what is distinct in one is distinct in the other
    have hdistinct := List.pairwise_map.2 (listing_distinct (s := s) p)
    rw [← hids] at hdistinct
    exact List.pairwise_map.1 hdistinct
  · intro c
    simp only [hmem, mem_listing, and_assoc]

end Store

end CalcJournal
