/-
CalcJournal.Proofs.Store.Rewriting — what updates and deletions make of the rows.

An update or a deletion is aimed at one id. Where that id has no row, it is refused, and to
replace or to leave out nothing is to leave the rows as they are. So whether it is refused or
not, it makes the same thing of every row (`Row.altered`): the row of its id is replaced or
left out, and all others stay. Whether it is refused is told by the row of its id alone.

Hence two of them that are aimed at different ids can be carried out in either order, and
so can the filing of a draft and an update or deletion that is not aimed at the id of that
draft, because the counter is moved by filing only (`Store.Commute`).
-/
import CalcJournal.Proofs.Store.Effects
import Mathlib.Data.List.Basic

namespace CalcJournal

/-! ## 1. Alterations -/

/-- What is left of a row when the row of an id is replaced, or left out. -/
def Row.altered (id : CalculationId) (left? : Option Row) (q : Row) : Option Row :=
  if q.id = id then left? else some q

/-- A command is an update or a deletion: it is aimed at an id, and leaves a row under it, or
none. -/
inductive Command.Alters : Command → CalculationId → Option Row → Prop
  | update (c : Calculation) : Alters (.update c) c.id (some c.row)
  | delete (id : CalculationId) : Alters (.delete id) id none

/-- What is left under an id is a row of that id. -/
theorem Command.Alters.id_of_left {d : Command} {id : CalculationId} {left? : Option Row}
    (h : d.Alters id left?) : ∀ r, left? = some r → r.id = id := by
  intro r hr
  cases h with
  | update c => rw [← Option.some.inj hr, Calculation.row_id]
  | delete => simp at hr

namespace Store

variable {s t : Store} {c d : Command} {a b : CalculationId} {left? : Option Row}

/-- Stores with the same rows and the same counter are the same. -/
theorem ext (hrows : s.rows = t.rows) (hlast : s.lastId = t.lastId) : s = t := by
  cases s
  cases t
  cases hrows
  cases hlast
  rfl

/-- To write a row over nothing but itself changes nothing. -/
theorem replace_eq_self {r : Row} (h : ∀ q ∈ s.rows, q.id = r.id → q = r) :
    s.replace r = s := by
  have hsame : ∀ q ∈ s.rows, (if q.id = r.id then r else q) = q := by
    intro q hq
    split
    case isTrue hid => exact (h q hq hid).symm
    case isFalse => rfl
  exact ext ((List.map_congr_left hsame).trans (List.map_id' s.rows)) rfl

/-- To write a row over itself once more changes nothing. -/
theorem replace_replace (s : Store) (r : Row) : (s.replace r).replace r = s.replace r := by
  refine replace_eq_self fun q hq hid => ?_
  obtain ⟨p, -, rfl⟩ := List.mem_map.1 hq
  split
  case isTrue => rfl
  case isFalse hne => simp only [hne, if_false] at hid

/-- An update replaces the row of its id, which changes nothing when there is none. -/
theorem update_eq (s : Store) (c : Calculation) : s.update c =
    (match s.row? c.id with
      | none => .error (.calculationNotFound c.id)
      | some _ => .ok c.cut, s.replace c.row) := by
  rcases s.update_cases c with ⟨r, hrow, hupdate⟩ | ⟨hrow, hupdate⟩
  · rw [hupdate, hrow]
  · have hnone := row?_eq_none_iff.1 hrow
    rw [hupdate, hrow, replace_eq_self fun q hq hid => absurd hid (hnone q hq)]

/-- A deletion leaves out the row of its id, which changes nothing when there is none. -/
theorem delete_eq (s : Store) (id : CalculationId) : s.delete id =
    (match s.row? id with
      | none => .error (.calculationNotFound id)
      | some _ => .ok (), s.erase id) := by
  rcases s.delete_cases id with ⟨r, hrow, hdelete⟩ | ⟨hrow, hdelete⟩
  · rw [hdelete, hrow]
  · have hnone : ∀ q ∈ s.rows, decide (q.id ≠ id) = true := fun q hq =>
      decide_eq_true (row?_eq_none_iff.1 hrow q hq)
    have hsame : s.erase id = s := ext (List.filter_eq_self.2 hnone) rfl
    rw [hdelete, hrow, hsame]

/-- Rows of which none has the id are left as they are. -/
theorem filterMap_altered_of_ne {rows : List Row} (h : ∀ q ∈ rows, q.id ≠ b) :
    rows.filterMap (Row.altered b left?) = rows := by
  have hsame : ∀ q ∈ rows, Row.altered b left? q = some q := fun q hq => if_neg (h q hq)
  rw [List.filterMap_congr hsame, List.filterMap_some]

section Alterations

variable (h : d.Alters b left?)
include h

/-- **An update or a deletion alters the row of its id**, whether it is refused or not. -/
theorem rows_of_alters (s : Store) :
    (s.perform d).2.rows = s.rows.filterMap (Row.altered b left?) := by
  cases h with
  | update c =>
    have hrow : Row.altered c.id (some c.row)
        = fun q => some (if q.id = c.id then c.row else q) := by
      funext q
      rw [Row.altered]
      split <;> rfl
    show (s.update c).2.rows = _
    rw [update_eq, hrow, List.filterMap_eq_map']
    rfl
  | delete id =>
    have hrow : Row.altered b none = Option.guard fun q => decide (q.id ≠ b) := by
      funext q
      by_cases hid : q.id = b <;> simp [Row.altered, Option.guard, hid]
    show (s.delete b).2.rows = _
    rw [delete_eq, hrow, List.filterMap_eq_filter]
    rfl

theorem lastId_of_alters (s : Store) : (s.perform d).2.lastId = s.lastId := by
  cases h with
  | update c =>
    show (s.update c).2.lastId = _
    rw [update_eq]
    rfl
  | delete =>
    show (s.delete b).2.lastId = _
    rw [delete_eq]
    rfl

/-- The rows of all other ids are found as before. -/
theorem row?_of_alters (s : Store) (hne : a ≠ b) : (s.perform d).2.row? a = s.row? a := by
  cases h with
  | update c =>
    show (s.update c).2.row? a = _
    rw [update_eq, row?_replace, Calculation.row_id, if_neg hne]
  | delete =>
    show (s.delete b).2.row? a = _
    rw [delete_eq, row?_erase, if_neg hne]

/-- The reply depends on nothing but whether there is a row of the id. -/
theorem reply_of_alters (hrow : (s.row? b).isSome = (t.row? b).isSome) :
    (s.perform d).1 = (t.perform d).1 := by
  cases h with
  | update c =>
    show (s.update c).1 = (t.update c).1
    rw [update_eq, update_eq]
    cases hs : s.row? c.id <;> cases ht : t.row? c.id <;> simp [hs, ht] at hrow ⊢
  | delete =>
    show (s.delete b).1 = (t.delete b).1
    rw [delete_eq, delete_eq]
    cases hs : s.row? b <;> cases ht : t.row? b <;> simp [hs, ht] at hrow ⊢

end Alterations

/-! ## 2. Commands in either order -/

/-- Two commands commute on a store: in either order they get the same two replies, and leave
the same store. -/
structure Commute (s : Store) (c d : Command) : Prop where
  first : ((s.perform d).2.perform c).1 = (s.perform c).1
  second : ((s.perform c).2.perform d).1 = (s.perform d).1
  left : ((s.perform c).2.perform d).2 = ((s.perform d).2.perform c).2

/-- What is left under an id is not altered under another one. -/
theorem bind_altered (h : c.Alters a left?) (hne : a ≠ b) (left'? : Option Row) :
    left?.bind (Row.altered b left'?) = left? := by
  cases hleft : left? with
  | none => rfl
  | some r =>
    have hid : r.id = a := h.id_of_left r hleft
    exact if_neg (hid ▸ hne)

/-- **Alterations under different ids commute.** -/
theorem commute_of_alters {leftA? leftB? : Option Row} (hc : c.Alters a leftA?)
    (hd : d.Alters b leftB?) (hne : a ≠ b) (s : Store) : s.Commute c d where
  first := reply_of_alters hc (by rw [row?_of_alters hd s hne])
  second := reply_of_alters hd (by rw [row?_of_alters hc s hne.symm])
  left := by
    have hleftA := bind_altered hc hne leftB?
    have hleftB := bind_altered hd hne.symm leftA?
    refine ext ?_ ?_
    · rw [rows_of_alters hd, rows_of_alters hc, rows_of_alters hc, rows_of_alters hd,
        List.filterMap_filterMap, List.filterMap_filterMap]
      refine List.filterMap_congr fun q _ => ?_
      by_cases ha : q.id = a
      · have hb : q.id ≠ b := ha ▸ hne
        simp only [Row.altered, if_pos ha, if_neg hb, Option.bind_some]
        exact hleftA
      · by_cases hb : q.id = b
        · simp only [Row.altered, if_neg ha, if_pos hb, Option.bind_some]
          exact hleftB.symm
        · simp only [Row.altered, if_neg ha, if_neg hb, Option.bind_some]
    · rw [lastId_of_alters hd, lastId_of_alters hc, lastId_of_alters hc, lastId_of_alters hd]

section Filing

variable (draft : Draft)

/-- The row that a draft gets, if there is an id left. -/
def filedRow? (s : Store) : Option Row := s.nextId?.map fun id => (draft.withId id).row

theorem reply_create (s : Store) : (s.create draft).1 =
    match s.nextId? with
    | none => .error full
    | some id => .ok (draft.withId id).cut := by
  rcases s.create_cases draft with ⟨id, fresh, hnext, hcreate⟩ | ⟨hnext, hcreate⟩ <;>
    rw [hcreate, hnext]

theorem rows_create (s : Store) :
    (s.create draft).2.rows = s.rows ++ (s.filedRow? draft).toList := by
  rcases s.create_cases draft with ⟨id, fresh, hnext, hcreate⟩ | ⟨hnext, hcreate⟩
  · rw [hcreate, filedRow?, hnext]
    rfl
  · rw [hcreate, filedRow?, hnext]
    exact (List.append_nil _).symm

theorem lastId_create (s : Store) : (s.create draft).2.lastId =
    match s.nextId? with
    | none => s.lastId
    | some id => max s.lastId id.val.toNat := by
  rcases s.create_cases draft with ⟨id, fresh, hnext, hcreate⟩ | ⟨hnext, hcreate⟩
  · rw [hcreate, hnext]
    rfl
  · rw [hcreate, hnext]

/-- The next id is told by the counter alone. -/
theorem nextId?_congr (h : s.lastId = t.lastId) : s.nextId? = t.nextId? := by
  simp only [nextId?, h]

/-- The rows of all ids but the next one are found as before. -/
theorem row?_create (s : Store) (hne : s.nextId? ≠ some b) :
    (s.create draft).2.row? b = s.row? b := by
  rcases s.create_cases draft with ⟨id, fresh, hnext, hcreate⟩ | ⟨-, hcreate⟩
  · have hb : b ≠ (draft.withId id).row.id := fun heq => hne (heq ▸ hnext)
    rw [hcreate, row?_push, if_neg hb]
  · rw [hcreate]

/-- **Filing a draft commutes with an alteration** that is not aimed at the id of the draft. -/
theorem commute_create (h : d.Alters b left?) (hne : s.nextId? ≠ some b) :
    s.Commute (.create draft) d := by
  have hlast := lastId_of_alters h s
  have hnext := nextId?_congr hlast
  refine ⟨?_, ?_, ext ?_ ?_⟩
  · show ((s.perform d).2.create draft).1 = (s.create draft).1
    rw [reply_create, reply_create, hnext]
  · exact reply_of_alters (s := (s.create draft).2) h (by rw [row?_create draft s hne])
  · -- the row of the draft has another id, so it is not altered
    have hfiled : (s.filedRow? draft).toList.filterMap (Row.altered b left?)
        = (s.filedRow? draft).toList := by
      refine filterMap_altered_of_ne fun q hq => ?_
      obtain ⟨id, hid, rfl⟩ := Option.map_eq_some_iff.1 (Option.mem_toList.1 hq)
      exact fun heq => hne (heq ▸ hid)
    show ((s.create draft).2.perform d).2.rows = ((s.perform d).2.create draft).2.rows
    rw [rows_of_alters h, rows_create, rows_create, rows_of_alters h, List.filterMap_append, hfiled,
      filedRow?, filedRow?, hnext]
  · show ((s.create draft).2.perform d).2.lastId = ((s.perform d).2.create draft).2.lastId
    rw [lastId_of_alters h, lastId_create, lastId_create, hnext, hlast]

end Filing

end Store

end CalcJournal
