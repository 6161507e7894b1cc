/-
CalcJournal.Store.Basic — the store of calculations.

The store holds rows, no two with the same id, and the largest id that was ever
among them, zero if none was above it. A new row gets the id after that one, so no
id comes twice, not even after its row has been deleted. When the last id there is
has been given, no further row can be created, and all else still works.

Every operation answers a calculation with its instant cut to microseconds, as the
store keeps it, and otherwise as it was given.
-/
import CalcJournal.Store.Row

namespace CalcJournal

/-- The rows that are kept, and the largest id ever among them. -/
structure Store where
  rows : List Row
  lastId : Nat
  distinct : rows.Pairwise fun a b => a.id ≠ b.id
  covered : ∀ r ∈ rows, r.id.val ≤ lastId
  bounded : lastId ≤ CalculationId.last

/-- The calculation with its instant cut to microseconds, as the store keeps it. -/
def Calculation.cut (c : Calculation) : Calculation :=
  { c with created := c.created.toMicroseconds }

namespace Store

/-- The store without rows, that never had one. -/
def empty : Store where
  rows := []
  lastId := 0
  distinct := .nil
  covered := by simp
  bounded := by decide

/-! ## Reading -/

/-- The row of an id. -/
def row? (s : Store) (id : CalculationId) : Option Row := s.rows.find? fun r => r.id = id

/-- The calculation of an id, if there is one. -/
def find (s : Store) (id : CalculationId) : Except StoreError (Option Calculation) :=
  match s.row? id with
  | none => .ok none
  | some r => r.toCalculation.map some

/-- The rows that satisfy `p`, in the order in which they are listed. -/
def listing (s : Store) (p : Row → Bool) : List Row :=
  (s.rows.filter p).mergeSort Row.listedBefore

/-- All calculations as listed. -/
def list (s : Store) : Except StoreError (List Calculation) :=
  (s.listing fun _ => true).mapM Row.toCalculation

/-- The calculations that mention a text, as listed. -/
def search (s : Store) (text : String) : Except StoreError (List Calculation) :=
  (s.listing (Row.mentions text)).mapM Row.toCalculation

/-! ## Writing -/

/-- What is said when no id is left. -/
def full : StoreError :=
  .queryFailed "INSERT calculations"
    "error returned from database: (code: 13) database or disk is full"

/-- The store with one more row, whose id is new. -/
def push (s : Store) (r : Row) (fresh : ∀ q ∈ s.rows, q.id ≠ r.id) : Store where
  rows := s.rows ++ [r]
  lastId := max s.lastId r.id.val.toNat
  distinct := List.pairwise_append.2 ⟨s.distinct, by simp, by simpa using fresh⟩
  covered := by
    intro q hq
    rcases List.mem_append.1 hq with hq | hq
    · have := s.covered q hq; omega
    · rw [List.mem_singleton.1 hq]; omega
  bounded := by
    have := s.bounded; have := r.id.high
    simp only [CalculationId.last] at *; omega

/-- The id after the last, unless none is left. -/
def nextId? (s : Store) : Option CalculationId :=
  if h : s.lastId < 9223372036854775807 then some ⟨s.lastId + 1, by omega, by omega⟩ else none

/-- The id after the last is larger than that of every row. -/
theorem val_of_nextId? {s : Store} {id : CalculationId} (h : s.nextId? = some id) :
    id.val = s.lastId + 1 := by
  unfold nextId? at h
  split at h
  · rw [← Option.some.inj h]
  · simp at h

/-- The id after the last is in no row. -/
theorem fresh_of_nextId? {s : Store} {id : CalculationId} (h : s.nextId? = some id) :
    ∀ r ∈ s.rows, r.id ≠ id := by
  intro r hr heq
  have := s.covered r hr
  have := val_of_nextId? h
  rw [heq] at *; omega

/-- Files a draft under the id after the last. -/
def create (s : Store) (d : Draft) : Except StoreError Calculation × Store :=
  match h : s.nextId? with
  | none => (.error full, s)
  | some id =>
    let c := (d.withId id).cut
    (.ok c, s.push (.ofCalculation c) (fresh_of_nextId? h))

/-- The row `r` in the place of the row with its id. -/
def replace (s : Store) (r : Row) : Store where
  rows := s.rows.map fun q => if q.id = r.id then r else q
  lastId := s.lastId
  distinct := by
    refine List.pairwise_map.2 (s.distinct.imp fun {a b} hab => ?_)
    by_cases ha : a.id = r.id <;> by_cases hb : b.id = r.id <;> simp_all [Ne.symm]
  covered := by
    intro q hq
    obtain ⟨p, hp, rfl⟩ := List.mem_map.1 hq
    have := s.covered p hp
    split
    · rename_i h; rw [← h]; exact this
    · exact this
  bounded := s.bounded

/-- Writes a calculation over the row with its id. -/
def update (s : Store) (c : Calculation) : Except StoreError Calculation × Store :=
  match s.row? c.id with
  | none => (.error (.calculationNotFound c.id), s)
  | some _ => (.ok c.cut, s.replace (.ofCalculation c.cut))

/-- The store without the row of an id. -/
def erase (s : Store) (id : CalculationId) : Store where
  rows := s.rows.filter fun r => r.id ≠ id
  lastId := s.lastId
  distinct := s.distinct.filter _
  covered r hr := s.covered r (List.mem_filter.1 hr).1
  bounded := s.bounded

/-- Deletes the row of an id. -/
def delete (s : Store) (id : CalculationId) : Except StoreError Unit × Store :=
  match s.row? id with
  | none => (.error (.calculationNotFound id), s)
  | some _ => (.ok (), s.erase id)

/-! ## What a write does to each row -/

/-- A new row is found under its id, and every other row as before. -/
theorem row?_push (s : Store) (r : Row) (fresh : ∀ q ∈ s.rows, q.id ≠ r.id)
    (id : CalculationId) :
    (s.push r fresh).row? id = if id = r.id then some r else s.row? id := by
  simp only [row?, push, List.find?_append]
  by_cases h : id = r.id
  · subst h
    have hnone : s.rows.find? (fun q => decide (q.id = r.id)) = none :=
      List.find?_eq_none.2 (by simpa using fresh)
    simp [hnone]
  · simp [h, Ne.symm h]

/-- A row that is written over is found under its id if there was one, and every other row as
before. -/
theorem row?_replace (s : Store) (r : Row) (id : CalculationId) :
    (s.replace r).row? id = if id = r.id then (s.row? id).map fun _ => r else s.row? id := by
  simp only [row?, replace, List.find?_map]
  by_cases h : id = r.id
  · subst h
    induction s.rows with
    | nil => simp
    | cons q rows ih => by_cases hq : q.id = r.id <;> simp_all
  · induction s.rows with
    | nil => simp [h]
    | cons q rows ih =>
      by_cases hq : q.id = r.id <;> by_cases hid : q.id = id <;>
        simp_all [Ne.symm h]

/-- An erased row is not found, and every other row as before. -/
theorem row?_erase (s : Store) (erased id : CalculationId) :
    (s.erase erased).row? id = if id = erased then none else s.row? id := by
  simp only [row?, erase, List.find?_filter]
  by_cases h : id = erased
  · subst h; simp
  · simp only [h, if_false]
    congr 1
    funext q
    by_cases hq : q.id = id <;> simp_all

/-! ## Rows from elsewhere -/

/-- Takes in a row whose columns were filled elsewhere, with values of their types, unless its id
is in use. -/
def insertRow (s : Store) (r : Row) : Store :=
  if h : ∀ q ∈ s.rows, q.id ≠ r.id then
    s.push { r with result := r.result.bind Row.column } h
  else s

end Store

end CalcJournal
