/-
CalcJournal.Proofs.Store.Veiled — stores that are alike but for rows that cannot be read.

A command stumbles over a row when its reply is what the reading of that row has come to. Only
commands that read do, and only over rows that cannot be read.

Two stores are veiled from each other when they have the same rows and the same counter, except
that rows which can be read in neither may hold whatever they like behind their ids. Every
command leaves such stores veiled (`Veiled.perform`). It stumbles in both or in neither, unless
it is a search, for the text may occur in the one row and not in the other
(`Veiled.stumbles_iff`); and where it does not stumble, it gets the same reply
(`Veiled.reply_eq`).
-/
import CalcJournal.Proofs.Store.Rewriting
import Mathlib.Data.List.Forall2

namespace CalcJournal

/-! ## 1. Rows that cannot be read -/

namespace Row

variable {q p : Row}

/-- A row that cannot be read. -/
def Unreadable (q : Row) : Prop := ∃ e, q.toCalculation = .error e

/-- Two rows are the same, or they have the same id and neither can be read. -/
def Veiled (q p : Row) : Prop := q = p ∨ q.id = p.id ∧ q.Unreadable ∧ p.Unreadable

theorem Veiled.refl (q : Row) : q.Veiled q := .inl rfl

theorem Veiled.id_eq (h : q.Veiled p) : q.id = p.id := by
  rcases h with rfl | ⟨hid, -, -⟩
  · rfl
  · exact hid

theorem Veiled.unreadable_iff (h : q.Veiled p) : q.Unreadable ↔ p.Unreadable := by
  rcases h with rfl | ⟨-, hq, hp⟩
  · rfl
  · exact iff_of_true hq hp

theorem exists_of_not_unreadable (h : ¬ q.Unreadable) : ∃ c, q.toCalculation = .ok c := by
  cases hread : q.toCalculation with
  | error e => exact absurd ⟨e, hread⟩ h
  | ok c => exact ⟨c, rfl⟩

/-- What is said of a row that cannot be read is said of nothing else. -/
theorem error_of_toCalculation {e : StoreError} (h : q.toCalculation = .error e) :
    ∃ message, e = .unreadable message := by
  unfold toCalculation at h
  split at h
  · exact ⟨_, (Except.error.inj h).symm⟩
  · split at h
    · exact ⟨_, (Except.error.inj h).symm⟩
    · simp at h

/-- Rows of which one cannot be read are read as far as the first such row. -/
theorem mapM_of_unreadable {rows : List Row} (h : ∃ q ∈ rows, q.Unreadable) :
    ∃ q ∈ rows, ∃ e, q.toCalculation = .error e ∧ rows.mapM toCalculation = .error e := by
  induction rows with
  | nil => simp at h
  | cons p rows ih =>
    by_cases hp : p.Unreadable
    · obtain ⟨e, he⟩ := hp
      refine ⟨p, by simp, e, he, ?_⟩
      rw [List.mapM_cons, he]
      rfl
    · obtain ⟨c, hc⟩ := exists_of_not_unreadable hp
      obtain ⟨q, hq, hunreadable⟩ := h
      rcases List.mem_cons.1 hq with rfl | hq
      · exact absurd hunreadable hp
      · obtain ⟨q, hq, e, he, hread⟩ := ih ⟨q, hq, hunreadable⟩
        refine ⟨q, List.mem_cons_of_mem p hq, e, he, ?_⟩
        rw [List.mapM_cons, hc, hread]
        rfl

end Row

/-! ## 2. Stumbling -/

namespace Store

variable {s t : Store} {id : CalculationId}

/-- A command is answered with what the reading of a row has come to. -/
def Stumbles (s : Store) (c : Command) (q : Row) : Prop :=
  q ∈ s.rows ∧ ∃ e, q.toCalculation = .error e ∧ (s.perform c).1 = .error e

/-- A listing stumbles over any row that it selects and that cannot be read. -/
theorem exists_stumbles_listing (p : Row → Bool) :
    (∃ q ∈ s.rows, ∃ e, q.toCalculation = .error e ∧
      (s.listing p).mapM Row.toCalculation = .error e) ↔
    ∃ q ∈ s.rows, p q = true ∧ q.Unreadable := by
  constructor
  · rintro ⟨-, -, e, -, hlisting⟩
    refine Classical.byContradiction fun hnone => ?_
    have hreadable : ∀ q ∈ s.listing p, ∃ c, q.toCalculation = .ok c := by
      intro q hq
      obtain ⟨hmem, hp⟩ := mem_listing.1 hq
      exact Row.exists_of_not_unreadable fun hq => hnone ⟨q, hmem, hp, hq⟩
    obtain ⟨cs, hread, -, -⟩ := mapM_toCalculation hreadable
    rw [hread] at hlisting
    simp at hlisting
  · rintro ⟨q, hq, hp, hunreadable⟩
    obtain ⟨q, hq, e, he, hread⟩ :=
      Row.mapM_of_unreadable ⟨q, mem_listing.2 ⟨hq, hp⟩, hunreadable⟩
    exact ⟨q, (mem_listing.1 hq).1, e, he, hread⟩

theorem exists_stumbles_list : (∃ q, s.Stumbles .list q) ↔ ∃ q ∈ s.rows, q.Unreadable := by
  have hlisting := exists_stumbles_listing (s := s) fun _ => true
  simp only [true_and] at hlisting
  exact hlisting

theorem exists_stumbles_search {text : String} : (∃ q, s.Stumbles (.search text) q) ↔
    ∃ q ∈ s.rows, q.mentions text = true ∧ q.Unreadable :=
  exists_stumbles_listing (Row.mentions text)

theorem exists_stumbles_find :
    (∃ q, s.Stumbles (.find id) q) ↔ ∃ q, s.row? id = some q ∧ q.Unreadable := by
  constructor
  · rintro ⟨-, -, e, -, hfind⟩
    have hfind : s.find id = .error e := hfind
    unfold find at hfind
    cases hrow : s.row? id with
    | none => simp [hrow] at hfind
    | some r =>
      cases hread : r.toCalculation with
      | error e' => exact ⟨r, rfl, e', hread⟩
      | ok c => simp [hrow, hread, Except.map] at hfind
  · rintro ⟨q, hrow, e, he⟩
    have hid := id_of_row? hrow
    refine ⟨q, mem_rows_iff.2 (hid ▸ hrow), e, he, ?_⟩
    show s.find id = .error e
    simp only [find, hrow, he]
    rfl

/-- A reply that is no word about a row that cannot be read is not stumbled over. -/
theorem not_stumbles {c : Command} {q : Row}
    (h : ∀ message, (s.perform c).1 ≠ .error (.unreadable message)) : ¬ s.Stumbles c q := by
  rintro ⟨-, e, he, hreply⟩
  obtain ⟨message, rfl⟩ := Row.error_of_toCalculation he
  exact h message hreply

theorem not_stumbles_create (draft : Draft) (q : Row) : ¬ s.Stumbles (.create draft) q := by
  refine not_stumbles fun message h => ?_
  have h : (s.create draft).1 = .error (.unreadable message) := h
  rw [reply_create] at h
  split at h <;> simp [full] at h

theorem not_stumbles_update (c : Calculation) (q : Row) : ¬ s.Stumbles (.update c) q := by
  refine not_stumbles fun message h => ?_
  have h : (s.update c).1 = .error (.unreadable message) := h
  rw [update_eq] at h
  split at h <;> simp at h

theorem not_stumbles_delete (id : CalculationId) (q : Row) : ¬ s.Stumbles (.delete id) q := by
  refine not_stumbles fun message h => ?_
  have h : (s.delete id).1 = .error (.unreadable message) := h
  rw [delete_eq] at h
  split at h <;> simp at h

/-- A command that stumbles changes nothing, for it only reads. -/
theorem perform_of_stumbles {c : Command} {q : Row} (h : s.Stumbles c q) : (s.perform c).2 = s := by
  cases c with
  | list | find | search => rfl
  | create draft => exact absurd h (not_stumbles_create draft q)
  | update c => exact absurd h (not_stumbles_update c q)
  | delete id => exact absurd h (not_stumbles_delete id q)

/-! ## 3. Veiled stores -/

/-- Two stores are alike but for rows that can be read in neither. -/
structure Veiled (s t : Store) : Prop where
  rows : List.Forall₂ Row.Veiled s.rows t.rows
  lastId : s.lastId = t.lastId

/-- Alike lists of rows have alike rows under each id, or both none. -/
theorem rel_find? {rows rows' : List Row} (h : List.Forall₂ Row.Veiled rows rows')
    (id : CalculationId) :
    Option.Rel Row.Veiled (rows.find? fun q => q.id = id) (rows'.find? fun q => q.id = id) := by
  induction h with
  | nil => exact .none
  | @cons q p rows rows' hqp _ ih =>
    by_cases hq : q.id = id
    · have hp : p.id = id := hqp.id_eq ▸ hq
      simp only [List.find?_cons_of_pos, hq, hp, decide_true]
      exact .some hqp
    · have hp : p.id ≠ id := hqp.id_eq ▸ hq
      simp only [List.find?_cons, hq, hp, decide_false]
      exact ih

/-- Among alike lists of rows, both have a row that cannot be read, or none does. -/
theorem exists_unreadable_iff {rows rows' : List Row} (h : List.Forall₂ Row.Veiled rows rows') :
    (∃ q ∈ rows, q.Unreadable) ↔ ∃ q ∈ rows', q.Unreadable := by
  induction h with
  | nil => simp
  | cons hqp _ ih =>
    simp only [List.mem_cons, exists_eq_or_imp]
    exact or_congr hqp.unreadable_iff ih

/-- Alike lists of rows hold the same of what can be read. -/
theorem filter_eq {rows rows' : List Row} (h : List.Forall₂ Row.Veiled rows rows')
    {p : Row → Bool} (hread : ∀ q ∈ rows, p q = true → ¬ q.Unreadable)
    (hread' : ∀ q ∈ rows', p q = true → ¬ q.Unreadable) : rows.filter p = rows'.filter p := by
  induction h with
  | nil => rfl
  | @cons q q' rows rows' hqq _ ih =>
    have hrest := ih (fun r hr => hread r (List.mem_cons_of_mem q hr))
      fun r hr => hread' r (List.mem_cons_of_mem q' hr)
    rcases hqq with rfl | ⟨-, hq, hq'⟩
    · rw [List.filter_cons, List.filter_cons, hrest]
    · have hout : ¬ p q = true := fun h => hread q (by simp) h hq
      have hout' : ¬ p q' = true := fun h => hread' q' (by simp) h hq'
      rw [List.filter_cons_of_neg hout, List.filter_cons_of_neg hout', hrest]

namespace Veiled

variable (h : s.Veiled t)
include h

theorem rel_row? (id : CalculationId) : Option.Rel Row.Veiled (s.row? id) (t.row? id) :=
  rel_find? h.rows id

theorem isSome_row? (id : CalculationId) : (s.row? id).isSome = (t.row? id).isSome := by
  have hrow := h.rel_row? id
  cases hs : s.row? id <;> cases ht : t.row? id <;> simp [hs, ht] at hrow ⊢

/-- What both can read is listed in the same order. -/
theorem listing_eq {p : Row → Bool} (hs : ∀ q ∈ s.rows, p q = true → ¬ q.Unreadable)
    (ht : ∀ q ∈ t.rows, p q = true → ¬ q.Unreadable) : s.listing p = t.listing p := by
  rw [listing, listing, filter_eq h.rows hs ht]

/-- **Only a search can stumble in one of two veiled stores and not in the other.** -/
theorem stumbles_iff {c : Command} (hc : ∀ text, c ≠ .search text) :
    (∃ q, s.Stumbles c q) ↔ ∃ q, t.Stumbles c q := by
  cases c with
  | list => rw [exists_stumbles_list, exists_stumbles_list, exists_unreadable_iff h.rows]
  | find id =>
    rw [exists_stumbles_find, exists_stumbles_find]
    have hrow := h.rel_row? id
    cases hs : s.row? id <;> cases ht : t.row? id <;> simp [hs, ht] at hrow ⊢
    exact hrow.unreadable_iff
  | search text => exact absurd rfl (hc text)
  | create draft => simp only [not_stumbles_create]
  | update c => simp only [not_stumbles_update]
  | delete id => simp only [not_stumbles_delete]

/-- **A command that does not stumble gets the same reply from two veiled stores.** -/
theorem reply_eq {c : Command} (hs : ∀ q, ¬ s.Stumbles c q) (ht : ∀ q, ¬ t.Stumbles c q) :
    (s.perform c).1 = (t.perform c).1 := by
  cases c with
  | list =>
    show s.list = t.list
    -- neither store has a row that cannot be read
    have hs := exists_stumbles_list.not.1 (not_exists.2 hs)
    have ht := exists_stumbles_list.not.1 (not_exists.2 ht)
    rw [list, list, h.listing_eq (fun q hq _ hu => hs ⟨q, hq, hu⟩) fun q hq _ hu => ht ⟨q, hq, hu⟩]
  | find id =>
    show s.find id = t.find id
    have hs := exists_stumbles_find.not.1 (not_exists.2 hs)
    have hrow : s.row? id = t.row? id := by
      have hrow := h.rel_row? id
      cases hsrow : s.row? id <;> cases htrow : t.row? id <;> simp [hsrow, htrow] at hrow ⊢
      rcases hrow with hsame | ⟨-, hq, -⟩
      · exact hsame
      · exact absurd ⟨_, hsrow, hq⟩ hs
    rw [find, find, hrow]
  | search text =>
    show s.search text = t.search text
    -- either store may have one, but the text does not occur in it
    have hs := exists_stumbles_search.not.1 (not_exists.2 hs)
    have ht := exists_stumbles_search.not.1 (not_exists.2 ht)
    rw [search, search,
      h.listing_eq (fun q hq hp hu => hs ⟨q, hq, hp, hu⟩) fun q hq hp hu => ht ⟨q, hq, hp, hu⟩]
  | create draft =>
    show (s.create draft).1 = (t.create draft).1
    rw [reply_create, reply_create, nextId?_congr h.lastId]
  | update c => exact reply_of_alters (.update c) (h.isSome_row? c.id)
  | delete id => exact reply_of_alters (.delete id) (h.isSome_row? id)

/-- The same draft gets the same row in both. -/
theorem create (draft : Draft) : (s.create draft).2.Veiled (t.create draft).2 where
  rows := by
    have hfiled : s.filedRow? draft = t.filedRow? draft := by
      rw [filedRow?, filedRow?, nextId?_congr h.lastId]
    have hsame : ∀ rows : List Row, List.Forall₂ Row.Veiled rows rows := fun rows =>
      List.forall₂_same.2 fun q _ => .refl q
    rw [rows_create, rows_create, hfiled]
    exact List.rel_append h.rows (hsame _)
  lastId := by rw [lastId_create, lastId_create, nextId?_congr h.lastId, h.lastId]

/-- The rows of the same id are altered in the same way. -/
theorem alter {d : Command} {id : CalculationId} {left? : Option Row} (hd : d.Alters id left?) :
    (s.perform d).2.Veiled (t.perform d).2 where
  rows := by
    have halter : ∀ ⦃q p : Row⦄, q.Veiled p →
        Option.Rel Row.Veiled (Row.altered id left? q) (Row.altered id left? p) := by
      intro q p hqp
      have hp : p.id = id ↔ q.id = id := by rw [hqp.id_eq]
      simp only [Row.altered, hp]
      split
      · cases left? with
        | none => exact .none
        | some r => exact .some (.refl r)
      · exact .some hqp
    rw [rows_of_alters hd, rows_of_alters hd]
    exact List.rel_filterMap halter h.rows
  lastId := by rw [lastId_of_alters hd, lastId_of_alters hd, h.lastId]

/-- **Every command leaves two veiled stores veiled.** -/
theorem perform (c : Command) : (s.perform c).2.Veiled (t.perform c).2 := by
  cases c with
  | list | find | search => exact h
  | create draft => exact h.create draft
  | update c => exact h.alter (.update c)
  | delete id => exact h.alter (.delete id)

end Veiled

end Store

end CalcJournal
