/-
CalcJournal.Proofs.Store.Damage — what a row that cannot be read does to the other commands.

A row that came from elsewhere may have a type that is the label of no category, or a date that
writes no instant. It is selected and sorted by its texts like any other row, and only then is
it read. So a reading fails exactly when it selects such a row, and then it says what is wrong
with the first of them in the order of the listing (`reply_eq_error`); a reading that selects
none is answered as if there were none (`reply_readable`).

Nothing that writes reads a row. A draft gets the same id and the same row with and without the
damaged rows, and an update or a deletion of a damaged row goes through. What it leaves behind
can be read, so the readings that only this row was in the way of succeed again.
-/
import CalcJournal.Proofs.Journal.Listing
import CalcJournal.Proofs.Store.Veiled

namespace CalcJournal

/-! ## 1. Rows that can be read -/

namespace Category

/-- The label of a category is read as that category, and nothing else is read as one. -/
theorem ofLabel?_eq_some_iff {s : String} {c : Category} :
    ofLabel? s = some c ↔ c.label = s := by
  constructor
  · exact label_of_ofLabel?
  · rintro rfl
    exact ofLabel?_label c

theorem ofLabel?_eq_none_iff {s : String} :
    ofLabel? s = none ↔ ∀ c : Category, c.label ≠ s := by
  simp only [Option.eq_none_iff_forall_ne_some, ne_eq, ofLabel?_eq_some_iff]

end Category

namespace Row

variable {q : Row} {message : String}

/-- A row can be read: its type is the label of a category, and its date writes an instant. -/
def IsReadable (q : Row) : Prop :=
  (∃ c : Category, c.label = q.category) ∧ ∃ t, Instant.ofText? q.created = some t

/-- What is wrong with a row that cannot be read. The type is looked at before the date. -/
inductive Defect (q : Row) : String → Prop
  | category (h : ∀ c : Category, c.label ≠ q.category) :
      Defect q (Category.unknownMessage q.category)
  | created {c : Category} (hc : c.label = q.category) (h : Instant.ofText? q.created = none) :
      Defect q (dateMessage q.created)

instance (q : Row) : Decidable q.IsReadable :=
  decidable_of_iff
    ((Category.ofLabel? q.category).isSome ∧ (Instant.ofText? q.created).isSome) (by
      simp only [IsReadable, Option.isSome_iff_exists, Category.ofLabel?_eq_some_iff])

/-- A row is not read exactly when something is wrong with it, and that is what is said. -/
theorem toCalculation_eq_error_iff {e : StoreError} :
    q.toCalculation = .error e ↔ ∃ message, q.Defect message ∧ e = .unreadable message := by
  unfold toCalculation
  split
  case h_1 hlabel =>
    have hnone := Category.ofLabel?_eq_none_iff.1 hlabel
    constructor
    · intro h
      exact ⟨_, .category hnone, (Except.error.inj h).symm⟩
    · rintro ⟨message, hdefect, rfl⟩
      cases hdefect with
      | category => rfl
      | created hc => exact absurd hc (hnone _)
  case h_2 c hlabel =>
    have hc := Category.ofLabel?_eq_some_iff.1 hlabel
    split
    case h_1 hdate =>
      constructor
      · intro h
        exact ⟨_, .created hc hdate, (Except.error.inj h).symm⟩
      · rintro ⟨message, hdefect, rfl⟩
        cases hdefect with
        | category h => exact absurd hc (h c)
        | created => rfl
    case h_2 t hdate =>
      constructor
      · intro h
        simp at h
      · rintro ⟨message, hdefect, -⟩
        cases hdefect with
        | category h => exact absurd hc (h c)
        | created _ h => simp [hdate] at h

/-- A row that is read can be read. -/
theorem isReadable_of_toCalculation {c : Calculation} (h : q.toCalculation = .ok c) :
    q.IsReadable := by
  unfold toCalculation at h
  split at h
  · simp at h
  case h_2 category hlabel =>
    split at h
    · simp at h
    case h_2 t hdate => exact ⟨⟨category, Category.ofLabel?_eq_some_iff.1 hlabel⟩, t, hdate⟩

/-- Of every row it is told whether it can be read. -/
theorem unreadable_iff : q.Unreadable ↔ ¬ q.IsReadable := by
  constructor
  · rintro ⟨e, he⟩ ⟨⟨c, hc⟩, t, ht⟩
    obtain ⟨message, hdefect, -⟩ := toCalculation_eq_error_iff.1 he
    cases hdefect with
    | category h => exact h c hc
    | created _ h => simp [h] at ht
  · intro h
    refine Classical.byContradiction fun hread => h ?_
    obtain ⟨c, hc⟩ := exists_of_not_unreadable hread
    exact isReadable_of_toCalculation hc

/-- The row of a calculation can be read. -/
theorem isReadable_row (c : Calculation) : c.row.IsReadable :=
  isReadable_of_toCalculation (toCalculation_row c)

/-- A row is listed above another one: the text of its date comes later, or it is the same and
the id is larger. -/
def Above (q p : Row) : Prop :=
  p.created < q.created ∨ p.created = q.created ∧ p.id.val < q.id.val

/-- Of two rows with different ids, the one that is listed before the other is above it. -/
theorem above_of_listedBefore {p : Row} (h : q.listedBefore p = true) (hne : q.id ≠ p.id) :
    q.Above p := by
  have hval : q.id.val ≠ p.id.val := fun h => hne (CalculationId.ext h)
  rcases listedBefore_iff.1 h with hlater | ⟨hsame, hle⟩
  · exact .inl hlater
  · exact .inr ⟨hsame.symm, by omega⟩

/-- Rows are read up to the first that cannot be read. -/
theorem exists_first_of_mapM_error {rows : List Row} {e : StoreError}
    (h : rows.mapM toCalculation = .error e) :
    ∃ before q after, rows = before ++ q :: after ∧ (∀ p ∈ before, p.IsReadable) ∧
      q.toCalculation = .error e := by
  induction rows with
  | nil => simp [List.mapM_nil, pure, Except.pure] at h
  | cons p rows ih =>
    rw [List.mapM_cons] at h
    cases hp : p.toCalculation with
    | error e' =>
      rw [hp] at h
      obtain rfl : e' = e := Except.error.inj h
      exact ⟨[], p, rows, rfl, by simp, hp⟩
    | ok c =>
      have hreadable := isReadable_of_toCalculation hp
      cases hrest : rows.mapM toCalculation with
      | ok cs =>
        rw [hp, hrest] at h
        cases h
      | error e' =>
        rw [hp, hrest] at h
        obtain rfl : e' = e := Except.error.inj h
        obtain ⟨before, q, after, rfl, hbefore, hq⟩ := ih hrest
        refine ⟨p :: before, q, after, rfl, ?_, hq⟩
        intro r hr
        rcases List.mem_cons.1 hr with rfl | hr
        · exact hreadable
        · exact hbefore r hr

end Row

/-! ## 2. Readings -/

/-- What can be read of a store: all of it, what stands under an id, or what mentions a text. -/
inductive Reading where
  | list
  | find (id : CalculationId)
  | search (text : String)

namespace Reading

/-- The command that reads. -/
def command : Reading → Command
  | .list => .list
  | .find id => .find id
  | .search text => .search text

/-- The rows that are selected, by their texts as they are. -/
def selects : Reading → Row → Bool
  | .list, _ => true
  | .find id, q => decide (q.id = id)
  | .search text, q => q.mentions text

end Reading

namespace Store

variable {s : Store}

/-- A reading selects a row that cannot be read. -/
def Blocked (s : Store) (c : Reading) : Prop :=
  ∃ q ∈ s.rows, c.selects q = true ∧ ¬ q.IsReadable

/-- The first of the rows that a reading selects and that cannot be read. -/
structure Blocks (s : Store) (c : Reading) (q : Row) : Prop where
  mem : q ∈ s.rows
  selected : c.selects q = true
  unreadable : ¬ q.IsReadable
  first : ∀ p ∈ s.rows, c.selects p = true → ¬ p.IsReadable → p ≠ q → q.Above p

/-- A listing fails with what is said of the first row that it cannot read. -/
theorem exists_first_of_listing_error {p : Row → Bool} {e : StoreError}
    (h : (s.listing p).mapM Row.toCalculation = .error e) :
    ∃ q ∈ s.rows, p q = true ∧ q.toCalculation = .error e ∧
      ∀ r ∈ s.rows, p r = true → ¬ r.IsReadable → r ≠ q → q.Above r := by
  obtain ⟨before, q, after, hrows, hbefore, hq⟩ := Row.exists_first_of_mapM_error h
  have hmem : q ∈ s.listing p := by rw [hrows]; simp
  obtain ⟨hin, hp⟩ := mem_listing.1 hmem
  refine ⟨q, hin, hp, hq, ?_⟩
  intro r hr hpr hdamaged hne
  have hlisted : r ∈ before ++ q :: after := hrows ▸ mem_listing.2 ⟨hr, hpr⟩
  have hafter : r ∈ after := by
    rcases List.mem_append.1 hlisted with hr | hr
    · exact absurd (hbefore r hr) hdamaged
    · rcases List.mem_cons.1 hr with heq | hr
      · exact absurd heq hne
      · exact hr
  have hsorted := listing_sorted s p
  rw [hrows] at hsorted
  have hbefore := List.rel_of_pairwise_cons (List.pairwise_append.1 hsorted).2.1 hafter
  exact Row.above_of_listedBefore hbefore fun hid => hne (eq_of_mem_rows hr hin hid.symm)

/-- A reading that fails says what is wrong with the first row that blocks it. -/
theorem reply_eq_error {c : Reading} {e : StoreError} (h : (s.perform c.command).1 = .error e) :
    ∃ q message, s.Blocks c q ∧ q.Defect message ∧ e = .unreadable message := by
  have hfirst : ∃ q ∈ s.rows, c.selects q = true ∧ q.toCalculation = .error e ∧
      ∀ r ∈ s.rows, c.selects r = true → ¬ r.IsReadable → r ≠ q → q.Above r := by
    cases c with
    | list => exact exists_first_of_listing_error h
    | search text => exact exists_first_of_listing_error h
    | find id =>
      have h : s.find id = .error e := h
      unfold find at h
      cases hrow : s.row? id with
      | none => simp [hrow] at h
      | some q =>
        have hid := id_of_row? hrow
        cases hread : q.toCalculation with
        | ok a => simp [hrow, hread, Except.map] at h
        | error e' =>
          obtain rfl : e' = e := by simpa [hrow, hread, Except.map] using h
          have hin : q ∈ s.rows := mem_rows_iff.2 (hid ▸ hrow)
          refine ⟨q, hin, by simpa [Reading.selects] using hid, hread, ?_⟩
          -- no other row has the id
          intro r hr hselects _ hne
          have hsame : r.id = id := by simpa [Reading.selects] using hselects
          exact absurd (eq_of_mem_rows hr hin (hsame.trans hid.symm)) hne
  obtain ⟨q, hin, hselects, hread, hfirst⟩ := hfirst
  obtain ⟨message, hdefect, rfl⟩ := Row.toCalculation_eq_error_iff.1 hread
  exact ⟨q, message, ⟨hin, hselects, Row.unreadable_iff.1 ⟨_, hread⟩, hfirst⟩, hdefect, rfl⟩

/-- **A reading fails exactly when it selects a row that cannot be read.** -/
theorem exists_reply_error_iff (s : Store) (c : Reading) :
    (∃ e, (s.perform c.command).1 = .error e) ↔ s.Blocked c := by
  constructor
  · rintro ⟨e, he⟩
    obtain ⟨q, -, hblocks, -⟩ := reply_eq_error he
    exact ⟨q, hblocks.mem, hblocks.selected, hblocks.unreadable⟩
  · rintro ⟨q, hin, hselects, hdamaged⟩
    have hunreadable := Row.unreadable_iff.2 hdamaged
    have hstumbles : ∃ q, s.Stumbles c.command q := by
      cases c with
      | list => exact exists_stumbles_list.2 ⟨q, hin, hunreadable⟩
      | search text => exact exists_stumbles_search.2 ⟨q, hin, hselects, hunreadable⟩
      | find id =>
        have hid : q.id = id := by simpa [Reading.selects] using hselects
        exact exists_stumbles_find.2 ⟨q, hid ▸ mem_rows_iff.1 hin, hunreadable⟩
    obtain ⟨-, -, e, -, he⟩ := hstumbles
    exact ⟨e, he⟩

theorem exists_reply_ok {c : Reading} (h : ¬ s.Blocked c) :
    ∃ a, (s.perform c.command).1 = .ok a := by
  cases hreply : (s.perform c.command).1 with
  | ok a => exact ⟨a, rfl⟩
  | error e => exact absurd ((exists_reply_error_iff s c).1 ⟨e, hreply⟩) h

/-! ## 3. The store without its damaged rows -/

/-- The store without the rows that cannot be read. -/
def readable (s : Store) : Store where
  rows := s.rows.filter fun q => q.IsReadable
  lastId := s.lastId
  distinct := s.distinct.filter _
  covered r hr := s.covered r (List.mem_filter.1 hr).1
  bounded := s.bounded

theorem mem_readable {q : Row} : q ∈ s.readable.rows ↔ q ∈ s.rows ∧ q.IsReadable := by
  rw [readable, List.mem_filter, decide_eq_true_iff]

/-- Rows that can all be read are listed as if there were no others. -/
theorem listing_readable {p : Row → Bool}
    (h : ∀ q ∈ s.rows, p q = true → q.IsReadable) : s.readable.listing p = s.listing p := by
  have hrows : s.readable.rows.filter p = s.rows.filter p := by
    rw [readable, List.filter_filter]
    refine List.filter_congr fun q hq => ?_
    by_cases hp : p q = true
    · simp [hp, h q hq hp]
    · simp [hp]
  rw [listing, listing, hrows]

theorem row?_readable {id : CalculationId} (h : ∀ q ∈ s.rows, q.id = id → q.IsReadable) :
    s.readable.row? id = s.row? id := by
  cases hrow : s.row? id with
  | none =>
    rw [row?_eq_none_iff] at hrow ⊢
    exact fun q hq => hrow q (mem_readable.1 hq).1
  | some q =>
    have hid := id_of_row? hrow
    have hin : q ∈ s.rows := mem_rows_iff.2 (hid ▸ hrow)
    have hkept := mem_rows_iff.1 (mem_readable.2 ⟨hin, h q hin hid⟩)
    rw [← hid, hkept]

/-- **A reading that is not blocked is answered as if no row were damaged.** -/
theorem reply_readable {c : Reading} (h : ¬ s.Blocked c) :
    (s.perform c.command).1 = (s.readable.perform c.command).1 := by
  have hreadable : ∀ q ∈ s.rows, c.selects q = true → q.IsReadable := fun q hin hselects =>
    Classical.byContradiction fun hdamaged => h ⟨q, hin, hselects, hdamaged⟩
  cases c with
  | list =>
    have hlisting := @listing_readable s (fun _ => true) hreadable
    show s.list = s.readable.list
    rw [list, list, hlisting]
  | search text =>
    have hlisting := @listing_readable s (Row.mentions text) hreadable
    show s.search text = s.readable.search text
    rw [search, search, hlisting]
  | find id =>
    show s.find id = s.readable.find id
    have hrow := @row?_readable s id fun q hin hid =>
      hreadable q hin (by simpa [Reading.selects] using hid)
    rw [find, find, hrow]

/-- Filing a draft and leaving out the damaged rows can be done in either order. -/
theorem readable_create (s : Store) (draft : Draft) :
    (s.create draft).2.readable = (s.readable.create draft).2 := by
  have hnext : s.readable.nextId? = s.nextId? := nextId?_congr rfl
  refine ext ?_ ?_
  · have hfiled : (s.filedRow? draft).toList.filter (fun q => q.IsReadable)
        = (s.filedRow? draft).toList := by
      refine List.filter_eq_self.2 fun q hq => ?_
      obtain ⟨id, -, rfl⟩ := Option.map_eq_some_iff.1 (Option.mem_toList.1 hq)
      exact decide_eq_true (Row.isReadable_row _)
    show (s.create draft).2.rows.filter _ = _
    rw [rows_create, rows_create, List.filter_append, hfiled, filedRow?, filedRow?, hnext]
    rfl
  · show (s.create draft).2.lastId = _
    rw [lastId_create, lastId_create, hnext]
    rfl

/-! ## 4. Updates and deletions of damaged rows -/

section Alterations

variable {d : Command} {id : CalculationId} {left? : Option Row}

/-- What an update leaves can be read. -/
theorem isReadable_of_left (h : d.Alters id left?) : ∀ r, left? = some r → r.IsReadable := by
  intro r hr
  cases h with
  | update c =>
    rw [← Option.some.inj hr]
    exact Row.isReadable_row c
  | delete => simp at hr

/-- An update or a deletion goes through where there is a row, readable or not. -/
theorem exists_reply_of_alters {q : Row} (h : d.Alters id left?) (hrow : s.row? id = some q) :
    (∃ a, (s.perform d).1 = .ok a) ∧ (s.perform d).2.row? id = left? := by
  cases h with
  | update c =>
    have hupdate : s.perform (.update c) = (.ok c.cut, s.replace c.row) := by
      show s.update c = _
      simp only [update_eq, hrow]
      rfl
    rw [hupdate, row?_replace, Calculation.row_id, if_pos rfl, hrow]
    exact ⟨⟨_, rfl⟩, rfl⟩
  | delete =>
    have hdelete : s.perform (.delete id) = (.ok (), s.erase id) := by
      show s.delete id = _
      simp only [delete_eq, hrow]
      rfl
    rw [hdelete, row?_erase, if_pos rfl]
    exact ⟨⟨_, rfl⟩, rfl⟩

/-- A row that is left by an update or a deletion and cannot be read was there before, under
another id. -/
theorem mem_of_alters (h : d.Alters id left?) {p : Row} (hin : p ∈ (s.perform d).2.rows)
    (hdamaged : ¬ p.IsReadable) : p ∈ s.rows ∧ p.id ≠ id := by
  rw [rows_of_alters h] at hin
  obtain ⟨r, hr, haltered⟩ := List.mem_filterMap.1 hin
  unfold Row.altered at haltered
  split at haltered
  case isTrue => exact absurd (isReadable_of_left h p haltered) hdamaged
  case isFalse hne =>
    obtain rfl := Option.some.inj haltered
    exact ⟨hr, hne⟩

end Alterations

/-! ## 5. Containment -/

/-- **A row that cannot be read is in the way of those readings that select it, and of nothing
else.** A reading fails exactly when it selects such a row; it says what is wrong with the first
of them in the order of the listing, the type before the date; otherwise it is answered as if
there were none, and it changes nothing. A draft is filed as if there were none. And an update or
a deletion of a row, be it readable or not, goes through and leaves a row that can be read, or
none, and all other rows as they were; what was blocked by that row alone is then answered. -/
theorem perform_error_iff_blocked (s : Store) :
    (∀ c : Reading,
      ((∃ e, (s.perform c.command).1 = .error e) ↔ s.Blocked c) ∧
      (∀ e, (s.perform c.command).1 = .error e →
        ∃ q message, s.Blocks c q ∧ q.Defect message ∧ e = .unreadable message) ∧
      (¬ s.Blocked c → (s.perform c.command).1 = (s.readable.perform c.command).1) ∧
      (s.perform c.command).2 = s) ∧
    (∀ draft : Draft,
      (s.create draft).1 = (s.readable.create draft).1 ∧
      (s.create draft).2.readable = (s.readable.create draft).2 ∧
      (s.create draft).2.rows = s.rows ++ (s.readable.filedRow? draft).toList) ∧
    ∀ q ∈ s.rows, ∀ (d : Command) (left? : Option Row), d.Alters q.id left? →
      (∃ a, (s.perform d).1 = .ok a) ∧
      (s.perform d).2.row? q.id = left? ∧ (∀ r, left? = some r → r.IsReadable) ∧
      (∀ id, id ≠ q.id → (s.perform d).2.row? id = s.row? id) ∧
      ∀ c : Reading, (∀ p ∈ s.rows, c.selects p = true → ¬ p.IsReadable → p = q) →
        ∃ a, ((s.perform d).2.perform c.command).1 = .ok a := by
  refine ⟨?_, ?_, ?_⟩
  · intro c
    refine ⟨exists_reply_error_iff s c, fun e => reply_eq_error, reply_readable, ?_⟩
    cases c <;> rfl
  · intro draft
    have hnext : s.readable.nextId? = s.nextId? := nextId?_congr rfl
    refine ⟨?_, readable_create s draft, ?_⟩
    · rw [reply_create, reply_create, hnext]
    · rw [rows_create, filedRow?, filedRow?, hnext]
  · intro q hin d left? halters
    obtain ⟨hreply, hleft⟩ := exists_reply_of_alters halters (mem_rows_iff.1 hin)
    refine ⟨hreply, hleft, isReadable_of_left halters,
      fun id hne => row?_of_alters halters s hne, ?_⟩
    intro c halone
    refine exists_reply_ok ?_
    rintro ⟨p, hp, hselects, hdamaged⟩
    obtain ⟨hbefore, hne⟩ := mem_of_alters halters hp hdamaged
    exact hne (congrArg Row.id (halone p hbefore hselects hdamaged))

/-- A row of no category. -/
def sumRow : Row :=
  ⟨⟨41, by decide, by decide⟩, "Sum", "1+1", "2024-01-15T10:30:00.000000Z", none⟩

/-- A row of no date. -/
def yesterdayRow : Row := ⟨⟨42, by decide, by decide⟩, "Addition", "1+1", "yesterday", none⟩

/-- A store that holds these two rows. -/
def damaged : Store := (empty.insertRow sumRow).insertRow yesterdayRow

/-- The text of the row without a date comes later, so it is the one that the history complains
of. Once the other row is deleted, its id is answered again. -/
theorem perform_error_yesterday :
    (∃ message, yesterdayRow.Defect message ∧ damaged.list = .error (.unreadable message)) ∧
    ¬ sumRow.IsReadable ∧
    ∃ a, ((damaged.perform (.delete sumRow.id)).2.perform (.find sumRow.id)).1 = .ok a := by
  have hrows : damaged.rows = [sumRow, yesterdayRow] := by decide +kernel
  have hsum : ¬ sumRow.IsReadable := by decide +kernel
  have hyesterday : ¬ yesterdayRow.IsReadable := by decide +kernel
  have hsumIn : sumRow ∈ damaged.rows := by simp [hrows]
  have hyesterdayIn : yesterdayRow ∈ damaged.rows := by simp [hrows]
  obtain ⟨hreadings, -, halterations⟩ := perform_error_iff_blocked damaged
  refine ⟨?_, hsum, ?_⟩
  · obtain ⟨hblocked, hfirst, -, -⟩ := hreadings .list
    obtain ⟨e, he⟩ := hblocked.2 ⟨sumRow, hsumIn, rfl, hsum⟩
    obtain ⟨q, message, hblocks, hdefect, rfl⟩ := hfirst e he
    have hq : q = sumRow ∨ q = yesterdayRow := by simpa [hrows] using hblocks.mem
    rcases hq with rfl | rfl
    · have habove := hblocks.first yesterdayRow hyesterdayIn rfl hyesterday (by decide)
      exact absurd habove (by unfold Row.Above; decide +kernel)
    · exact ⟨message, hdefect, he⟩
  · obtain ⟨-, -, -, -, hanswered⟩ :=
      halterations sumRow hsumIn (.delete sumRow.id) none (.delete sumRow.id)
    refine hanswered (.find sumRow.id) ?_
    intro p hp hselects _
    have hid : p.id = sumRow.id := by simpa [Reading.selects] using hselects
    exact eq_of_mem_rows hp hsumIn hid

end Store

end CalcJournal
