/-
CalcJournal.Proofs.Journal.Identity — no id comes twice.

The store remembers the largest id that was ever among its rows, and it is that counter, not
the rows that are left, that the next id is taken from. Whatever happens, rows from elsewhere
included, the counter does not go back, and an id that has no row and is not above the counter
stays without one, unless a row with that very id comes from elsewhere (`Store.Advances`).
Both are said of one happening and carry over to a run.

So a new calculation gets an id above all that were ever there, and an id that has been
deleted is not found again. The counter has an end: when the last id was there, no further
calculation can be filed, and everything else goes on (`Store.OutOfIds`).
-/
import CalcJournal.Proofs.Journal.Run

namespace CalcJournal

/-! ## 1. Happenings -/

/-- Something that happens to a repository. -/
inductive Happening where
  /-- The journal is used. -/
  | use (operation : Operation)
  /-- The store is closed and opened again. -/
  | reopen
  /-- A row comes from elsewhere. -/
  | insert (row : Row)

namespace Happening

/-- What is left of a repository. -/
def step (r : Repository) : Happening → Repository
  | .use o => (o.plan.run r).2
  | .reopen => r.reopened
  | .insert row =>
    match r with
    | .working s => .working (s.insertRow row)
    | .failing e => .failing e

/-- What has become of a database file that was opened for the first time. -/
def run (hs : List Happening) : Repository := hs.foldl step (.working (Store.opened none))

theorem run_append (hs later : List Happening) : run (hs ++ later) = later.foldl step (run hs) :=
  List.foldl_append

/-- The id under which a calculation is filed, if one is. -/
def filed? (r : Repository) : Happening → Option CalculationId
  | .use (.create limit now expression) =>
    ((Journal.create limit now expression).run r).1.toOption.map Calculation.id
  | _ => none

/-- The ids under which calculations are filed, the earliest first. -/
def filedIds (r : Repository) : List Happening → List CalculationId
  | [] => []
  | h :: hs => (h.filed? r).toList ++ filedIds (step r h) hs

/-- An id had a row at some time. -/
def EverPresent (hs : List Happening) (id : CalculationId) : Prop :=
  ∃ earlier later s row, hs = earlier ++ later ∧ run earlier = .working s ∧
    s.row? id = some row

end Happening

/-! ## 2. One happening -/

/-- What a happening does to a store, as far as ids go: the counter does not go back, and an
id without a row gets one only if it is above the counter or comes from elsewhere. -/
structure Store.Advances (h : Happening) (s t : Store) : Prop where
  lastId_le : s.lastId ≤ t.lastId
  row?_eq_none : ∀ id : CalculationId, s.row? id = none → id.val ≤ s.lastId →
    (∀ row, h = .insert row → row.id ≠ id) → t.row? id = none

namespace Store

variable {h : Happening} {s : Store}

theorem advances_self : Advances h s s := ⟨Nat.le_refl _, fun _ hnone _ _ => hnone⟩

/-- An id that has a row is not above the counter. -/
theorem le_lastId_of_row? {id : CalculationId} {row : Row} (hrow : s.row? id = some row) :
    id.val ≤ s.lastId := by
  have hid := id_of_row? hrow
  have hmem : row ∈ s.rows := mem_rows_iff.2 (by rw [hid, hrow])
  exact hid ▸ s.covered row hmem

/-- A row under the id after the counter moves the counter, and all else is as before. -/
theorem advances_push {c : Calculation} (hnext : s.nextId? = some c.id)
    (fresh : ∀ q ∈ s.rows, q.id ≠ c.row.id) : Advances h s (s.push c.row fresh) := by
  refine ⟨Nat.le_max_left _ _, ?_⟩
  intro id hnone hle _
  have hval := val_of_nextId? hnext
  have hne : id ≠ c.row.id := by
    rintro rfl
    rw [Calculation.row_id] at hle
    omega
  rw [row?_push, if_neg hne, hnone]

theorem advances_replace (row : Row) : Advances h s (s.replace row) := by
  refine ⟨Nat.le_refl _, ?_⟩
  intro id hnone _ _
  rw [row?_replace]
  split
  · rw [hnone]
    rfl
  · exact hnone

theorem advances_erase (erased : CalculationId) : Advances h s (s.erase erased) := by
  refine ⟨Nat.le_refl _, ?_⟩
  intro id hnone _ _
  rw [row?_erase]
  split
  · rfl
  · exact hnone

theorem advances_insertRow (row : Row) : Advances (.insert row) s (s.insertRow row) := by
  unfold insertRow
  split
  case isTrue hfresh =>
    refine ⟨Nat.le_max_left _ _, ?_⟩
    intro id hnone _ hother
    have hne : id ≠ row.id := fun heq => hother row rfl heq.symm
    rw [row?_push, if_neg hne, hnone]
  case isFalse => exact advances_self

end Store

namespace Happening

/-- A use of the journal leaves a store that works. -/
theorem advances_use (o : Operation) (s : Store) :
    ∃ t, step (.working s) (.use o) = .working t ∧ s.Advances (.use o) t := by
  cases o with
  | create limit now expression =>
    simp only [step, Operation.plan, Plan.run_map]
    rcases Journal.create_outcome limit now expression s with
      ⟨c, fresh, hnext, -, -, -, -, hrun⟩ | ⟨e, hrun⟩
    · rw [hrun]
      exact ⟨_, rfl, Store.advances_push hnext fresh⟩
    · rw [hrun]
      exact ⟨s, rfl, Store.advances_self⟩
  | get id => exact ⟨s, rfl, Store.advances_self⟩
  | history => exact ⟨s, rfl, Store.advances_self⟩
  | search text => exact ⟨s, rfl, Store.advances_self⟩
  | update limit id c =>
    simp only [step, Operation.plan, Plan.run_map]
    rcases Journal.update_outcome limit id c s with ⟨row, -, -, -, hrun⟩ | ⟨e, hrun, -⟩
    · rw [hrun]
      exact ⟨_, rfl, Store.advances_replace c.row⟩
    · rw [hrun]
      exact ⟨s, rfl, Store.advances_self⟩
  | delete id =>
    simp only [step, Operation.plan, Plan.run_map]
    rcases Journal.delete_outcome id s with ⟨row, -, hrun⟩ | ⟨e, hrun⟩
    · rw [hrun]
      exact ⟨_, rfl, Store.advances_erase id⟩
    · rw [hrun]
      exact ⟨s, rfl, Store.advances_self⟩

/-- **Whatever happens, a store that works goes on working, and its ids advance.** -/
theorem advances (h : Happening) (s : Store) :
    ∃ t, step (.working s) h = .working t ∧ s.Advances h t := by
  cases h with
  | use o => exact advances_use o s
  | reopen => exact ⟨s, rfl, Store.advances_self⟩
  | insert row => exact ⟨_, rfl, Store.advances_insertRow row⟩

end Happening

/-- A calculation that is filed gets the id after the counter, which moves on to it. -/
theorem Journal.lastId_of_create {limit : Nat} {now : Instant} {expression : String}
    {s : Store} {c : Calculation} {left : Repository}
    (hrun : (create limit now expression).run (.working s) = (.ok c, left)) :
    c.id.val = s.lastId + 1 ∧ ∃ t, left = .working t ∧ t.lastId = s.lastId + 1 := by
  rcases create_outcome limit now expression s with
    ⟨filed, fresh, hnext, -, -, -, -, hfiled⟩ | ⟨e, hrefused⟩
  · rw [hfiled] at hrun
    obtain ⟨hc, hleft⟩ := Prod.mk.inj hrun
    obtain rfl := Except.ok.inj hc
    have hval := Store.val_of_nextId? hnext
    refine ⟨hval, _, hleft.symm, ?_⟩
    show max s.lastId filed.id.val.toNat = s.lastId + 1
    omega
  · rw [hrefused] at hrun
    simp at hrun

namespace Happening

/-! ## 3. Runs -/

/-- A run goes on working, and the counter does not go back. -/
theorem foldl_lastId_le (hs : List Happening) (s : Store) :
    ∃ t, hs.foldl step (.working s) = .working t ∧ s.lastId ≤ t.lastId := by
  induction hs generalizing s with
  | nil => exact ⟨s, rfl, Nat.le_refl _⟩
  | cons h hs ih =>
    obtain ⟨t, hstep, hadvances⟩ := advances h s
    obtain ⟨u, hrun, hle⟩ := ih t
    rw [List.foldl_cons, hstep]
    exact ⟨u, hrun, Nat.le_trans hadvances.lastId_le hle⟩

/-- An id that has no row and is not above the counter has none after a run in which no row
with that id comes from elsewhere. -/
theorem foldl_row?_eq_none (hs : List Happening) {s t : Store} {id : CalculationId}
    (hrun : hs.foldl step (.working s) = .working t) (hnone : s.row? id = none)
    (hle : id.val ≤ s.lastId) (hother : ∀ row, .insert row ∈ hs → row.id ≠ id) :
    t.row? id = none := by
  induction hs generalizing s with
  | nil =>
    obtain rfl : s = t := Repository.working.inj hrun
    exact hnone
  | cons h hs ih =>
    obtain ⟨u, hstep, hadvances⟩ := advances h s
    rw [List.foldl_cons, hstep] at hrun
    have hlater : ∀ row, .insert row ∈ hs → row.id ≠ id := fun row hrow =>
      hother row (List.mem_cons_of_mem h hrow)
    have hnone' := hadvances.row?_eq_none id hnone hle fun row heq =>
      hother row (heq ▸ List.mem_cons_self)
    have hle' : id.val ≤ u.lastId := by
      have := hadvances.lastId_le
      omega
    exact ih hrun hnone' hle' hlater

theorem run_working (hs : List Happening) : ∃ s, run hs = .working s := by
  obtain ⟨s, hs, -⟩ := foldl_lastId_le hs (Store.opened none)
  exact ⟨s, hs⟩

/-- Whatever was ever present is not above the counter. -/
theorem EverPresent.le_lastId {hs : List Happening} {id : CalculationId} {t : Store}
    (h : EverPresent hs id) (hrun : run hs = .working t) : id.val ≤ t.lastId := by
  obtain ⟨earlier, later, s, row, rfl, hearlier, hrow⟩ := h
  rw [run_append, hearlier] at hrun
  obtain ⟨u, hlater, hle⟩ := foldl_lastId_le later s
  obtain rfl : u = t := Repository.working.inj (hlater.symm.trans hrun)
  have := Store.le_lastId_of_row? hrow
  omega

/-- What is filed gets the id after the counter, which moves on to it. -/
theorem val_of_filed? {h : Happening} {s t : Store} {id : CalculationId}
    (hfiled : h.filed? (.working s) = some id) (hstep : step (.working s) h = .working t) :
    id.val = s.lastId + 1 ∧ t.lastId = s.lastId + 1 := by
  unfold filed? at hfiled
  split at hfiled
  case h_1 limit now expression =>
    simp only [step, Operation.plan, Plan.run_map] at hstep
    cases hreply : ((Journal.create limit now expression).run (.working s)).1 with
    | error e => simp [hreply, Except.toOption] at hfiled
    | ok c =>
      rw [hreply] at hfiled
      obtain rfl : c.id = id := Option.some.inj hfiled
      obtain ⟨hval, u, hleft, hlast⟩ := Journal.lastId_of_create (Prod.ext hreply hstep)
      obtain rfl := Repository.working.inj hleft
      exact ⟨hval, hlast⟩
  case h_2 => simp at hfiled

/-- The ids of what is filed are above the counter and increase. -/
theorem filedIds_increasing (hs : List Happening) (s : Store) :
    (filedIds (.working s) hs).Pairwise (fun a b => a.val < b.val) ∧
      ∀ id ∈ filedIds (.working s) hs, (s.lastId : Int) < id.val := by
  induction hs generalizing s with
  | nil => exact ⟨.nil, by simp [filedIds]⟩
  | cons h hs ih =>
    obtain ⟨t, hstep, hadvances⟩ := advances h s
    obtain ⟨hpairs, habove⟩ := ih t
    have hle := hadvances.lastId_le
    rw [filedIds, hstep]
    cases hfiled : h.filed? (.working s) with
    | none =>
      refine ⟨hpairs, fun id hid => ?_⟩
      have := habove id hid
      omega
    | some first =>
      obtain ⟨hval, hlast⟩ := val_of_filed? hfiled hstep
      refine ⟨List.pairwise_cons.2 ⟨fun id hid => ?_, hpairs⟩, fun id hid => ?_⟩
      · have := habove id hid
        omega
      · rcases List.mem_cons.1 hid with rfl | hid
        · omega
        · have := habove id hid
          omega

end Happening

/-! ## 4. Ids that are gone, and the end of the counter -/

/-- An id is not found, deleted or written over, and trying changes nothing. -/
structure Repository.Lacks (r : Repository) (id : CalculationId) : Prop where
  get : (Journal.get id).run r = (.error (.notFound id), r)
  delete : (Journal.delete id).run r = (.error (.notFound id), r)
  update : ∀ limit c, Journal.objection? limit id c = none →
    (Journal.update limit id c).run r = (.error (.notFound id), r)

/-- No id is left: whatever could be filed is refused, and nothing changes. Everything else
goes on: what is there is found, written over and deleted, what is not there is not, and rows
that can all be read are listed and searched. -/
structure Store.OutOfIds (s : Store) : Prop where
  create : ∀ limit now expression value, expression.length ≤ limit →
    Expression.evaluate expression = .ok value →
    (Journal.create limit now expression).run (.working s)
      = (.error (.storage Store.full), .working s)
  lacks : ∀ id, s.row? id = none → (Repository.working s).Lacks id
  get : ∀ id row c, s.row? id = some row → row.toCalculation = .ok c →
    (Journal.get id).run (.working s) = (.ok c, .working s)
  update : ∀ limit id c row, s.row? id = some row → Journal.objection? limit id c = none →
    (Journal.update limit id c).run (.working s) = (.ok c.cut, .working (s.replace c.row))
  delete : ∀ id row, s.row? id = some row →
    (Journal.delete id).run (.working s) = (.ok (), .working (s.erase id))
  list : (∀ row ∈ s.rows, ∃ c, row.toCalculation = .ok c) →
    (∃ cs, Journal.history.run (.working s) = (.ok cs, .working s)) ∧
    ∀ text, ∃ cs, (Journal.search text).run (.working s) = (.ok cs, .working s)

section Stores

variable {s : Store}

/-- An id without a row is not found, deleted or written over. -/
theorem Store.lacks_of_row?_eq_none {id : CalculationId} (hnone : s.row? id = none) :
    (Repository.working s).Lacks id where
  get := by rw [Journal.run_get, hnone]
  delete := by
    rw [Journal.run_delete, delete, hnone]
    rfl
  update limit c hvalid := by
    obtain rfl := Journal.id_of_no_objection hvalid
    rw [Journal.run_update_of_valid hvalid, update, hnone]
    rfl

/-- A store whose counter is at its end has no id left. -/
theorem Store.outOfIds_of_lastId (hlast : (s.lastId : Int) = CalculationId.last) : s.OutOfIds where
  create limit now expression value hlength hvalue := by
    have hnext : s.nextId? = none := by
      refine dif_neg ?_
      simp only [CalculationId.last] at hlast
      omega
    rw [Journal.run_create_of_assess (Journal.assess_of_valid hlength hvalue)]
    rcases s.create_cases ⟨Category.classify expression, expression, now, value⟩ with
      ⟨id, -, hsome, -⟩ | ⟨-, hcreate⟩
    · rw [hnext] at hsome
      simp at hsome
    · rw [hcreate]
      rfl
  lacks id hnone := lacks_of_row?_eq_none hnone
  get id row c hrow hread := by
    simp only [Journal.run_get, hrow, hread]
    rfl
  update limit id c row hrow hvalid := by
    obtain rfl := Journal.id_of_no_objection hvalid
    rw [Journal.run_update_of_valid hvalid, update, hrow]
    rfl
  delete id row hrow := by
    rw [Journal.run_delete, delete, hrow]
    rfl
  list hreadable := by
    refine ⟨?_, fun text => ?_⟩
    · obtain ⟨cs, hread, -⟩ := read_listing hreadable fun _ => true
      refine ⟨cs, ?_⟩
      rw [Journal.run_history, Store.list, hread]
      rfl
    · obtain ⟨cs, hread, -⟩ := read_listing hreadable (Row.mentions text)
      refine ⟨cs, ?_⟩
      rw [Journal.run_search, Store.search, hread]
      rfl

end Stores

/-! ## 5. Ids in a run -/

/-- How ids are given over a run. -/
structure Happening.GivesIdsOnce (hs : List Happening) : Prop where
  /-- What is filed next gets an id above all that were ever present. -/
  above : ∀ limit now expression c left,
    (Journal.create limit now expression).run (run hs) = (.ok c, left) →
      1 ≤ c.id.val ∧ ∀ id, EverPresent hs id → id.val < c.id.val
  /-- The ids of what was filed increase from the beginning of the run to its end. -/
  increasing : (filedIds (.working (Store.opened none)) hs).Pairwise fun a b => a.val < b.val
  /-- An id that was deleted is gone, unless a row with it has come from elsewhere since. -/
  gone : ∀ earlier id later, hs = earlier ++ .use (.delete id) :: later →
    ((Journal.delete id).run (run earlier)).1 = .ok () →
    (∀ row, .insert row ∈ later → row.id ≠ id) → (run hs).Lacks id
  /-- When the last id was ever present, none is left. -/
  exhausted : ∀ id, EverPresent hs id → id.val = CalculationId.last →
    ∃ s, run hs = .working s ∧ s.OutOfIds

/-- **No id comes twice.** In every run of uses of the journal, openings of the store and rows
from elsewhere, what is filed gets an id above all that were ever present, what was deleted is
not found again, and at the end of the ids only filing comes to an end. -/
theorem Happening.ids_given_once (hs : List Happening) : GivesIdsOnce hs where
  above limit now expression c left hcreate := by
    obtain ⟨s, hrun⟩ := run_working hs
    rw [hrun] at hcreate
    obtain ⟨hval, -⟩ := Journal.lastId_of_create hcreate
    refine ⟨by omega, fun id hpresent => ?_⟩
    have := hpresent.le_lastId hrun
    omega
  increasing := (filedIds_increasing hs (Store.opened none)).1
  gone earlier id later hsplit hdeleted hother := by
    obtain ⟨s, hearlier⟩ := run_working earlier
    obtain ⟨t, hrun⟩ := run_working hs
    rw [hearlier] at hdeleted
    obtain ⟨row, hrow, hdelete⟩ | ⟨e, herror⟩ := Journal.delete_outcome id s
    · -- the id is not above the counter, because its row was there
      have hle := Store.le_lastId_of_row? hrow
      have hnone : (s.erase id).row? id = none := by rw [Store.row?_erase, if_pos rfl]
      have hstep : step (.working s) (.use (.delete id)) = .working (s.erase id) := by
        simp only [step, Operation.plan, Plan.run_map, hdelete]
      have hlater : later.foldl step (.working (s.erase id)) = .working t := by
        rw [hsplit, run_append, hearlier, List.foldl_cons, hstep] at hrun
        exact hrun
      rw [hrun]
      exact Store.lacks_of_row?_eq_none (foldl_row?_eq_none later hlater hnone hle hother)
    · rw [herror] at hdeleted
      simp at hdeleted
  exhausted id hpresent hlast := by
    obtain ⟨s, hrun⟩ := run_working hs
    have hle := hpresent.le_lastId hrun
    have hbound := s.bounded
    refine ⟨s, hrun, Store.outOfIds_of_lastId ?_⟩
    omega

/-- The id of a deleted calculation is passed over, and when a row has come with the last id,
no further one is given. -/
example :
    let file := Happening.use (.create 9
      ⟨⟨2024, 1, 15, by decide⟩, ⟨10, 30, 0, 0, by decide, by decide, by decide, by decide⟩⟩ "1")
    let first : CalculationId := ⟨1, by decide, by decide⟩
    let lastRow : Row := ⟨⟨9223372036854775807, by decide, by decide⟩, "Other", "1", "", none⟩
    (Happening.filedIds (.working (Store.opened none))
      [file, .use (.delete first), file, .insert lastRow, file]).map CalculationId.val
        = [1, 2] := by
  decide +kernel

end CalcJournal
