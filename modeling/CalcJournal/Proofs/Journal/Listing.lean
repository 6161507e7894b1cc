/-
CalcJournal.Proofs.Journal.Listing — the order in which calculations are listed.

Rows are sorted by their date texts, the last text first, and rows of the same date by their
ids, the largest first. That is a total order, and no two rows have the same id, so a listing
of some rows is the listing of all rows with the others left out (`listing_eq_filter`).

Date texts of one year are in the order of the instants, and otherwise the texts of the years
decide. So what is listed goes from the newest to the oldest exactly when no two of its years
are in one order as numbers and in another as texts (`newestFirst_iff`), and years of four
digits never are.
-/
import CalcJournal.Proofs.Calendar.Order
import CalcJournal.Proofs.Journal.Run

namespace CalcJournal

/-! ## 1. The order of rows -/

namespace Row

theorem listedBefore_iff {a b : Row} : a.listedBefore b = true ↔
    b.created < a.created ∨ a.created = b.created ∧ b.id.val ≤ a.id.val := by
  simp only [listedBefore, Bool.or_eq_true, Bool.and_eq_true, decide_eq_true_eq, beq_iff_eq]

theorem listedBefore_trans (a b c : Row) (hab : a.listedBefore b = true)
    (hbc : b.listedBefore c = true) : a.listedBefore c = true := by
  rw [listedBefore_iff] at hab hbc ⊢
  rcases hab with hab | ⟨hab, hid⟩
  · rcases hbc with hbc | ⟨hbc, -⟩
    · exact .inl (String.lt_trans hbc hab)
    · exact .inl (hbc ▸ hab)
  · rcases hbc with hbc | ⟨hbc, hid'⟩
    · exact .inl (hab ▸ hbc)
    · exact .inr ⟨hab.trans hbc, Int.le_trans hid' hid⟩

theorem listedBefore_total (a b : Row) : (a.listedBefore b || b.listedBefore a) = true := by
  rw [Bool.or_eq_true, listedBefore_iff, listedBefore_iff]
  by_cases hab : a.created < b.created
  · exact .inr (.inl hab)
  by_cases hba : b.created < a.created
  · exact .inl (.inl hba)
  have heq : a.created = b.created := String.le_antisymm hba hab
  rcases Int.le_total b.id.val a.id.val with h | h
  · exact .inl (.inr ⟨heq, h⟩)
  · exact .inr (.inr ⟨heq.symm, h⟩)

/-- Rows that may each be listed before the other have the same id. -/
theorem id_eq_of_listedBefore {a b : Row} (hab : a.listedBefore b = true)
    (hba : b.listedBefore a = true) : a.id = b.id := by
  rw [listedBefore_iff] at hab hba
  rcases hab with hab | ⟨hab, hid⟩
  · rcases hba with hba | ⟨hba, -⟩
    · exact absurd hba (String.lt_asymm hab)
    · exact absurd (hba ▸ hab) (String.lt_irrefl _)
  · rcases hba with hba | ⟨-, hid'⟩
    · exact absurd (hab ▸ hba) (String.lt_irrefl _)
    · exact CalculationId.ext (Int.le_antisymm hid' hid)

end Row

namespace Store

variable {s : Store}

theorem listing_sorted (s : Store) (p : Row → Bool) :
    (s.listing p).Pairwise fun a b => a.listedBefore b = true :=
  List.pairwise_mergeSort Row.listedBefore_trans Row.listedBefore_total _

/-- Rows of a store with the same id are the same. -/
theorem eq_of_mem_rows {a b : Row} (ha : a ∈ s.rows) (hb : b ∈ s.rows) (h : a.id = b.id) :
    a = b := by
  have hfound := mem_rows_iff.1 ha
  rw [h, mem_rows_iff.1 hb] at hfound
  exact (Option.some.inj hfound).symm

/-- **Some rows are listed as all rows are, with the others left out.** -/
theorem listing_eq_filter (s : Store) (p : Row → Bool) :
    s.listing p = (s.listing fun _ => true).filter p := by
  -- both are sorted, and they have the same rows
  refine List.Perm.eq_of_pairwise ?_ (listing_sorted s p)
    ((listing_sorted s fun _ => true).filter p) ?_
  · intro a b ha hb hab hba
    have ha := (mem_listing.1 ha).1
    have hb := (mem_listing.1 (List.mem_filter.1 hb).1).1
    exact eq_of_mem_rows ha hb (Row.id_eq_of_listedBefore hab hba)
  · have hall : (s.listing fun _ => true).Perm (s.rows.filter fun _ => true) :=
      List.mergeSort_perm _ _
    rw [List.filter_eq_self.2 fun _ _ => rfl] at hall
    exact (List.mergeSort_perm _ _).trans (hall.filter p).symm

end Store

/-! ## 2. Listings of calculations -/

theorem mapM_toCalculation_row (cs : List Calculation) :
    (cs.map Calculation.row).mapM Row.toCalculation = .ok (cs.map Calculation.kept) := by
  induction cs with
  | nil => rfl
  | cons c cs ih =>
    rw [List.map_cons, List.mapM_cons, Row.toCalculation_row, ih]
    rfl

/-- Rows of calculations are the rows of a list of calculations. -/
theorem exists_map_row {rows : List Row} (h : ∀ r ∈ rows, ∃ c : Calculation, c.row = r) :
    ∃ cs : List Calculation, cs.map Calculation.row = rows := by
  induction rows with
  | nil => exact ⟨[], rfl⟩
  | cons r rows ih =>
    obtain ⟨c, rfl⟩ := h r (by simp)
    obtain ⟨cs, rfl⟩ := ih fun q hq => h q (List.mem_cons_of_mem _ hq)
    exact ⟨c :: cs, rfl⟩

namespace Calculation

/-- A calculation is newer than another one: it was created later, or at the same instant
under a larger id. -/
def NewerThan (a b : Calculation) : Prop :=
  b.created.Before a.created ∨ a.created = b.created ∧ b.id.val < a.id.val

instance (a b : Calculation) : Decidable (a.NewerThan b) :=
  inferInstanceAs (Decidable (_ ∨ _ ∧ _))

/-- A calculation is listed above another one: the text of its year comes later, or it is
newer and of the same year. -/
def ListedAbove (a b : Calculation) : Prop :=
  Rfc3339.yearChars b.created.date.year < Rfc3339.yearChars a.created.date.year ∨
    a.created.date.year = b.created.date.year ∧ a.NewerThan b

/-- Rows that are listed in an order have been read in that order. -/
theorem kept_listedAbove {a b : Calculation} (h : a.row.listedBefore b.row = true)
    (hid : a.id ≠ b.id) : a.kept.ListedAbove b.kept := by
  have hne : a.id.val ≠ b.id.val := fun h => hid (CalculationId.ext h)
  rw [Row.listedBefore_iff, Row.created_row, Row.created_row, Instant.text_lt_iff,
    Instant.text_eq_iff] at h
  rcases h with (hyear | ⟨hyear, hbefore⟩) | ⟨hsame, hle⟩
  · exact .inl hyear
  · exact .inr ⟨hyear.symm, .inl hbefore⟩
  · have hyear : a.created.toMicroseconds.asWritten.date.year
        = b.created.toMicroseconds.asWritten.date.year := by rw [hsame]
    have hlt : b.id.val < a.id.val := by
      have : b.id.val ≤ a.id.val := hle
      omega
    exact .inr ⟨hyear, .inr ⟨hsame, hlt⟩⟩

end Calculation

/-! ## 3. Newest first -/

/-- Calculations from the newest to the oldest, and of the same instant from the largest id
to the smallest. -/
def NewestFirst (cs : List Calculation) : Prop := cs.Pairwise Calculation.NewerThan

instance (cs : List Calculation) : Decidable (NewestFirst cs) :=
  inferInstanceAs (Decidable (cs.Pairwise _))

/-- The years of calculations are in the same order as numbers and as texts. -/
def YearsInOrder (cs : List Calculation) : Prop :=
  ∀ a ∈ cs, ∀ b ∈ cs, a.created.date.year < b.created.date.year →
    Rfc3339.yearChars a.created.date.year < Rfc3339.yearChars b.created.date.year

theorem yearsInOrder_of_four {cs : List Calculation}
    (h : ∀ c ∈ cs, 0 ≤ c.created.date.year ∧ c.created.date.year ≤ 9999) : YearsInOrder cs :=
  fun a ha b hb hlt => (Rfc3339.yearChars_lt_iff_of_four (h a ha) (h b hb)).2 hlt

/-- What is listed above is not of an earlier year, when the years are in order. -/
theorem Calculation.ListedAbove.newerThan {a b : Calculation} (h : a.ListedAbove b)
    (hyears : a.created.date.year < b.created.date.year →
      Rfc3339.yearChars a.created.date.year < Rfc3339.yearChars b.created.date.year) :
    a.NewerThan b := by
  rcases h with hchars | ⟨-, hnewer⟩
  · rcases Int.lt_trichotomy a.created.date.year b.created.date.year with hlt | heq | hgt
    · exact absurd (hyears hlt) (List.lt_asymm hchars)
    · rw [heq] at hchars
      exact absurd hchars (List.lt_irrefl _)
    · exact .inl (Instant.before_of_year_lt hgt)
  · exact hnewer

theorem Calculation.NewerThan.year_le {a b : Calculation} (h : a.NewerThan b) :
    b.created.date.year ≤ a.created.date.year := by
  rcases h with hbefore | ⟨heq, -⟩
  · exact hbefore.year_le
  · exact Int.le_of_eq (congrArg (fun t : Instant => t.date.year) heq.symm)

/-- **What is listed goes from the newest to the oldest exactly when its years are in order.** -/
theorem newestFirst_iff {cs : List Calculation}
    (hlisted : cs.Pairwise Calculation.ListedAbove) : NewestFirst cs ↔ YearsInOrder cs := by
  constructor
  · intro hnewest
    -- of two calculations of different years, the one that is listed above is the later one
    have hpairs := List.pairwise_iff_getElem.1 (hnewest.and hlisted)
    intro a ha b hb hlt
    obtain ⟨i, hi, rfl⟩ := List.getElem_of_mem ha
    obtain ⟨j, hj, rfl⟩ := List.getElem_of_mem hb
    rcases Nat.lt_trichotomy i j with hij | rfl | hji
    · have hle := (hpairs i j hi hj hij).1.year_le
      exact absurd hlt (Int.not_lt.2 hle)
    · exact absurd hlt (Int.lt_irrefl _)
    · rcases (hpairs j i hj hi hji).2 with hchars | ⟨heq, -⟩
      · exact hchars
      · exact absurd hlt (Int.not_lt.2 (Int.le_of_eq heq))
  · intro hyears
    exact hlisted.imp_of_mem fun ha hb habove => habove.newerThan (hyears _ ha _ hb)

/-! ## 4. What is listed -/

namespace Ledger

/-- A store that keeps a ledger lists the calculations of its rows in their order, each id
once, and finds those that mention a text in the same order. -/
theorem KeptBy.run_listings {l : Ledger} {s : Store} (h : l.KeptBy s) :
    ∃ cs, Journal.history.run (.working s) = (.ok cs, .working s) ∧
      cs.Pairwise (fun a b => a.id ≠ b.id) ∧
      (∀ c, c ∈ cs ↔ ((Journal.get c.id).run (.working s)).1 = .ok c) ∧
      cs.Pairwise Calculation.ListedAbove ∧
      ∀ text, (Journal.search text).run (.working s)
        = (.ok (cs.filter fun c => c.row.mentions text), .working s) := by
  have hrows : ∀ r ∈ s.listing fun _ => true, ∃ c : Calculation, c.row = r := by
    intro r hr
    obtain ⟨c, -, hc⟩ := h.mem_rows.1 (Store.mem_listing.1 hr).1
    exact ⟨c, hc⟩
  obtain ⟨ds, hds⟩ := exists_map_row hrows
  have hrun : Journal.history.run (.working s) = (.ok (ds.map Calculation.kept), .working s) := by
    rw [Journal.run_history, Store.list, ← hds, mapM_toCalculation_row]
    rfl
  have hlisted : (ds.map Calculation.kept).Pairwise Calculation.ListedAbove := by
    have hsorted := (Store.listing_sorted s fun _ => true).and
      (Store.listing_distinct fun _ => true)
    rw [← hds, List.pairwise_map] at hsorted
    exact List.pairwise_map.2 (hsorted.imp fun h => Calculation.kept_listedAbove h.1 h.2)
  obtain ⟨cs, hhistory, hdistinct, hmem⟩ := h.run_history
  obtain rfl : cs = ds.map Calculation.kept := by
    rw [hrun] at hhistory
    exact (Except.ok.inj (congrArg Prod.fst hhistory)).symm
  refine ⟨_, hrun, hdistinct, hmem, hlisted, ?_⟩
  intro text
  have hsearch : s.search text
      = .ok ((ds.map Calculation.kept).filter fun c => c.row.mentions text) := by
    rw [Store.search, Store.listing_eq_filter, ← hds, List.filter_map, mapM_toCalculation_row,
      List.filter_map]
    simp only [Function.comp_def, Row.row_kept]
  rw [Journal.run_search, hsearch]
  rfl

end Ledger

/-- **History and search list in one order, which is that of time within each year.** After
every run of events, from a new database on, the history holds exactly what is found, each id
once. A calculation is listed above another one if the text of its year comes later, or if it
is newer and of the same year; so the history goes from the newest to the oldest exactly when
its years are in the same order as numbers and as texts, as years of four digits are. A
search answers with that part of the history that mentions the text, in the same order. -/
theorem Session.history_order (events : List Event) :
    ∃ cs, Journal.history.run (run events).repository = (.ok cs, (run events).repository) ∧
      cs.Pairwise (fun a b => a.id ≠ b.id) ∧
      (∀ c, c ∈ cs ↔ ((Journal.get c.id).run (run events).repository).1 = .ok c) ∧
      cs.Pairwise Calculation.ListedAbove ∧
      (NewestFirst cs ↔ YearsInOrder cs) ∧
      ((∀ c ∈ cs, 0 ≤ c.created.date.year ∧ c.created.date.year ≤ 9999) → NewestFirst cs) ∧
      ∀ text, (Journal.search text).run (run events).repository
        = (.ok (cs.filter fun c => c.row.mentions text), (run events).repository) := by
  obtain ⟨s, hx, hkept⟩ := refines_run events
  obtain ⟨cs, hhistory, hdistinct, hmem, hlisted, hsearch⟩ := hkept.run_listings
  rw [hx]
  refine ⟨cs, hhistory, hdistinct, hmem, hlisted, newestFirst_iff hlisted, ?_, hsearch⟩
  intro hfour
  exact (newestFirst_iff hlisted).2 (yearsInOrder_of_four hfour)

/-- The first instant of a year. -/
def newYear (year : Int) (h : Calendar.IsDay year 1 1) : Instant where
  date := ⟨year, 1, 1, h⟩
  time := ⟨0, 0, 0, 0, by decide, by decide, by decide, by decide⟩

/-- The first two ids, and what stands under them when `-0` is filed and dated. -/
def negation (second : Bool) (created : Instant) : Calculation where
  id := if second then ⟨2, by decide, by decide⟩ else ⟨1, by decide, by decide⟩
  category := .subtract
  expression := "-0"
  created := created
  result := .zero false

/-- Two negations are filed in 2024, and then the first one is dated to the year 10000. -/
def dateForward : List Event :=
  let file := Operation.create 100 (newYear 2024 (by decide)) "-0"
  let dated := negation false (newYear 10000 (by decide))
  [.submit 0 file, .settle 0, .submit 0 file, .settle 0, .submit 0 (.update 100 dated.id dated),
    .settle 0]

/-- What is dated to the year 10000 is the newest, and it is not listed first. -/
theorem year_ten_thousand_not_first :
    ∃ cs, (Journal.history.run (Session.run dateForward).repository).1 = .ok cs ∧
      ¬ NewestFirst cs := by
  obtain ⟨s, hx, hkept⟩ := Session.refines_run dateForward
  obtain ⟨cs, hhistory, -, hmem, hlisted, -⟩ := hkept.run_listings
  rw [← hx] at hhistory hmem
  refine ⟨cs, congrArg Prod.fst hhistory, fun hnewest => ?_⟩
  have hread : ∀ c : Calculation,
      ((Journal.get c.id).run (Session.run dateForward).repository).1.toOption = some c →
        c ∈ cs := by
    intro c hc
    refine (hmem c).2 ?_
    cases hget : ((Journal.get c.id).run (Session.run dateForward).repository).1 with
    | error e => simp [hget, Except.toOption] at hc
    | ok d =>
      rw [hget] at hc
      rw [Option.some.inj hc]
  have hnew := hread (negation false (newYear 10000 (by decide))) (by decide +kernel)
  have hold := hread (negation true (newYear 2024 (by decide))) (by decide +kernel)
  have hyears := (newestFirst_iff hlisted).1 hnewest _ hold _ hnew (by decide)
  exact absurd hyears (by decide)

end CalcJournal
