/-
CalcJournal.Proofs.Service.Chronicle — without updates, the history tells the order of filing.

New rows are added at the end, under larger and larger ids. As long as the clock, as it is
written, does not go back, the texts of their dates do not either, in years of four digits:
cutting to microseconds may make two dates the same, but never puts them in another order
(`Instant.text_not_lt`). Nothing but an update changes a row that is there. So the rows are the
calculations that are left, in the order in which they were filed, and the history is that order
reversed, because of rows of the same date the one with the larger id is listed first.

A clock that does not go back is written as one that does when it shows a leap second within a
minute, and shows the second behind it next. The history then has another order.
-/
import CalcJournal.Proofs.Journal.Listing
import CalcJournal.Proofs.Service.Run

namespace CalcJournal

/-! ## 1. What is left of what was filed -/

/-- The ids that are left, in the order of filing, when one more operation has been settled. -/
def Settled.left (ids : List CalculationId) (n : Settled) : List CalculationId :=
  (ids ++ n.filed?.toList).filter fun id => n.erased? ≠ some id

/-- The ids of what was filed and has not been erased since, in the order of filing. -/
def survivors (log : List Settled) : List CalculationId := log.foldl Settled.left []

theorem survivors_append_singleton (log : List Settled) (n : Settled) :
    survivors (log ++ [n]) = n.left (survivors log) := by
  simp [survivors]

namespace Settled

variable {ids : List CalculationId} {n : Settled}

theorem left_eq_self (hfiled : n.filed? = none) (herased : n.erased? = none) :
    n.left ids = ids := by
  simp [left, hfiled, herased]

theorem left_of_filed {id : CalculationId} (hfiled : n.filed? = some id)
    (herased : n.erased? = none) : n.left ids = ids ++ [id] := by
  simp [left, hfiled, herased]

theorem left_of_erased {id : CalculationId} (hfiled : n.filed? = none)
    (herased : n.erased? = some id) : n.left ids = ids.filter fun i => i ≠ id := by
  simp [left, hfiled, herased, eq_comm]

end Settled

/-! ## 2. Rows in the order of filing -/

/-- A row was filed before another one: its id is smaller, and its date is not later. -/
def Row.FiledBefore (a b : Row) : Prop := a.id.val < b.id.val ∧ ¬ b.created < a.created

/-- Rows in the order of filing are listed in the reverse order. -/
theorem Store.listing_eq_reverse {s : Store} (h : s.rows.Pairwise Row.FiledBefore) :
    (s.listing fun _ => true) = s.rows.reverse := by
  have hreverse : s.rows.reverse.Pairwise fun a b => a.listedBefore b = true := by
    refine List.pairwise_reverse.2 (h.imp fun {a b} hab => ?_)
    rw [Row.listedBefore_iff]
    by_cases hlt : a.created < b.created
    · exact .inl hlt
    · exact .inr ⟨String.le_antisymm hlt hab.2, Int.le_of_lt hab.1⟩
  have hperm : (s.listing fun _ => true).Perm s.rows.reverse := by
    have hsorted : (s.listing fun _ => true).Perm (s.rows.filter fun _ => true) :=
      List.mergeSort_perm _ _
    rw [List.filter_eq_self.2 fun _ _ => rfl] at hsorted
    exact hsorted.trans (List.reverse_perm s.rows).symm
  refine List.Perm.eq_of_pairwise ?_ (s.listing_sorted fun _ => true) hreverse hperm
  intro a b ha hb hab hba
  exact Store.eq_of_mem_rows (Store.mem_listing.1 ha).1 (List.mem_reverse.1 hb)
    (Row.id_eq_of_listedBefore hab hba)

namespace Service

/-- A clock that, as it is written, does not go back, and stays within the years of four digits.
Every instant is written as it is, but for a leap second within a minute. -/
structure Steady (visits : List Visit) : Prop where
  forward : visits.Pairwise fun v w => ¬ w.now.asWritten.Before v.now.asWritten
  fourDigits : ∀ v ∈ visits, 0 ≤ v.now.date.year ∧ v.now.date.year ≤ 9999

/-- A clock that is steady over some visits has been so before the last one. -/
theorem Steady.init {visits : List Visit} {v : Visit} (h : Steady (visits ++ [v])) :
    Steady visits where
  forward := (List.pairwise_append.1 h.forward).1
  fourDigits w hw := h.fourDigits w (List.mem_append_left _ hw)

/-- The clock at the last visit shows no text before that of an earlier visit. -/
theorem Steady.text_not_lt {visits : List Visit} {v w : Visit} (h : Steady (visits ++ [v]))
    (hw : w ∈ visits) : ¬ v.now.text .microseconds < w.now.text .microseconds := by
  have hlast := (List.pairwise_append.1 h.forward).2.2 w hw v (by simp)
  exact Instant.text_not_lt (h.fourDigits v (by simp))
    (h.fourDigits w (List.mem_append_left _ hw)) hlast

/-- The rows are what is left of what was filed, in the order of filing, and each is dated to
a visit. -/
structure Chronicle (visits : List Visit) (s : Store) (log : List Settled) : Prop where
  ids_eq : s.rows.map Row.id = survivors log
  inOrder : s.rows.Pairwise Row.FiledBefore
  dated : ∀ r ∈ s.rows, ∃ v ∈ visits, r.created = v.now.text .microseconds

variable {limit : Nat} {visits : List Visit} {s : Store} {log : List Settled}

theorem Chronicle.idle (h : Chronicle visits s log) (v : Visit) :
    Chronicle (visits ++ [v]) s log := by
  refine ⟨h.ids_eq, h.inOrder, fun r hr => ?_⟩
  obtain ⟨w, hw, hcreated⟩ := h.dated r hr
  exact ⟨w, List.mem_append_left _ hw, hcreated⟩

/-- A row that is added is the latest. -/
theorem Chronicle.file (h : Chronicle visits s log) {v : Visit} {n : Settled} {c : Calculation}
    (hsteady : Steady (visits ++ [v])) (hnext : s.nextId? = some c.id)
    (fresh : ∀ q ∈ s.rows, q.id ≠ c.row.id) (hcreated : c.created = v.now)
    (hfiled : n.filed? = some c.id) (herased : n.erased? = none) :
    Chronicle (visits ++ [v]) (s.push c.row fresh) (log ++ [n]) := by
  have hdate : c.row.created = v.now.text .microseconds := by rw [← hcreated, Row.created_row]
  have hval := Store.val_of_nextId? hnext
  refine ⟨?_, ?_, ?_⟩
  · rw [survivors_append_singleton, Settled.left_of_filed hfiled herased, ← h.ids_eq]
    exact List.map_append
  · refine List.pairwise_append.2 ⟨h.inOrder, List.pairwise_singleton _ _, ?_⟩
    intro r hr q hq
    obtain rfl := List.mem_singleton.1 hq
    obtain ⟨w, hw, hwritten⟩ := h.dated r hr
    have hle := s.covered r hr
    refine ⟨?_, ?_⟩
    · rw [Calculation.row_id]
      omega
    · rw [hdate, hwritten]
      exact hsteady.text_not_lt hw
  · intro r hr
    rcases List.mem_append.1 hr with hr | hr
    · exact (h.idle v).dated r hr
    · exact ⟨v, by simp, by rw [List.mem_singleton.1 hr, hdate]⟩

theorem Chronicle.erase (h : Chronicle visits s log) {n : Settled} {id : CalculationId}
    (hfiled : n.filed? = none) (herased : n.erased? = some id) (v : Visit) :
    Chronicle (visits ++ [v]) (s.erase id) (log ++ [n]) := by
  refine ⟨?_, h.inOrder.filter _, fun r hr => (h.idle v).dated r (List.mem_filter.1 hr).1⟩
  rw [survivors_append_singleton, Settled.left_of_erased hfiled herased, ← h.ids_eq,
    List.filter_map]
  rfl

theorem Chronicle.read (h : Chronicle visits s log) {n : Settled} (hfiled : n.filed? = none)
    (herased : n.erased? = none) (v : Visit) : Chronicle (visits ++ [v]) s (log ++ [n]) := by
  refine ⟨?_, h.inOrder, (h.idle v).dated⟩
  rw [survivors_append_singleton, Settled.left_eq_self hfiled herased, h.ids_eq]

/-- **A course without updates, under a steady clock, is chronicled by its rows.** -/
theorem Course.chronicle (h : Course limit visits s log) (hsteady : Steady visits)
    (hupdates : ∀ n ∈ log, n.rewritten? = none) : Chronicle visits s log := by
  induction h with
  | start => exact ⟨rfl, .nil, by simp [Store.empty]⟩
  | @idle visits s log v _ ih => exact (ih hsteady.init hupdates).idle v
  | @settle visits s t log v d answer _ _ hdoes _ ih =>
    have hbefore := ih hsteady.init fun n hn => hupdates n (List.mem_append_left _ hn)
    have hlast := hupdates _ (List.mem_append_right _ (List.mem_singleton_self _))
    generalize hoperation : d.operation (v.context limit) = o at hdoes hlast ⊢
    cases hdoes with
    | filed hnext fresh _ hmade =>
      obtain ⟨-, -, hnow⟩ := Demand.eq_of_operation_create hoperation
      exact hbefore.file hsteady hnext fresh (hmade.created_eq.trans hnow) rfl rfl
    | rewritten => simp [Settled.rewritten?] at hlast
    | @erased id => exact hbefore.erase rfl rfl v
    | read hread =>
      exact hbefore.read (Settled.filed?_of_isRead hread) (Settled.erased?_of_isRead hread) v
    | refused =>
      exact hbefore.read (Settled.filed?_of_refused _) (Settled.erased?_of_refused _) v

/-! ## 3. The history -/

/-- What is read of a row of a chronicle is dated to a year of four digits. -/
theorem Chronicle.fourDigits (h : Chronicle visits s log) (hsteady : Steady visits) {r : Row}
    {c : Calculation} (hr : r ∈ s.rows) (hread : r.toCalculation = .ok c) :
    0 ≤ c.created.date.year ∧ c.created.date.year ≤ 9999 := by
  obtain ⟨v, hv, hdate⟩ := h.dated r hr
  have hcreated := Row.created_of_toCalculation hread
  rw [hdate, Instant.ofText?_text] at hcreated
  rw [← Option.some.inj hcreated]
  exact hsteady.fourDigits v hv

/-- **Without updates, and under a clock that is written as one that does not go back, the history
is the order of filing reversed.** After every such run, it lists what was filed and has not been
erased, the last filed first: the ids descend strictly, and no date is before the one that is
listed next, however many dates are the same once they have been cut to microseconds. -/
theorem history_reverses_filing (limit : Nat) {visits : List Visit} (hsteady : Steady visits)
    (hupdates : ∀ n ∈ (run limit visits).log, n.rewritten? = none) :
    ∃ cs, Journal.history.run (run limit visits).repository
        = (.ok cs, (run limit visits).repository) ∧
      cs.map Calculation.id = (survivors (run limit visits).log).reverse ∧
      (∀ c, c ∈ cs ↔ ((Journal.get c.id).run (run limit visits).repository).1 = .ok c) ∧
      cs.Pairwise (fun a b => b.id.val < a.id.val) ∧
      cs.Pairwise fun a b => ¬ a.created.Before b.created := by
  obtain ⟨s, hs, hcourse⟩ := course_run limit visits
  have hchronicle := hcourse.chronicle hsteady hupdates
  obtain ⟨cs, hhistory, -, hmem, hlisted, -⟩ := hcourse.keptBy.run_listings
  have hreadable : ∀ r ∈ s.rows.reverse, ∃ c, r.toCalculation = .ok c := by
    intro r hr
    obtain ⟨c, -, rfl⟩ := hcourse.keptBy.mem_rows.1 (List.mem_reverse.1 hr)
    exact ⟨c.kept, Row.toCalculation_row c⟩
  obtain ⟨ds, hread, hids, hfrom⟩ := Store.mapM_toCalculation hreadable
  obtain rfl : cs = ds := by
    rw [Journal.run_history, Store.list, Store.listing_eq_reverse hchronicle.inOrder, hread]
      at hhistory
    exact (Except.ok.inj (Prod.mk.inj hhistory).1).symm
  have hfour : ∀ c ∈ cs, 0 ≤ c.created.date.year ∧ c.created.date.year ≤ 9999 := by
    intro c hc
    obtain ⟨r, hr, hc⟩ := (hfrom c).1 hc
    exact hchronicle.fourDigits hsteady (List.mem_reverse.1 hr) hc
  have hnewest := (newestFirst_iff hlisted).2 (yearsInOrder_of_four hfour)
  rw [hs]
  refine ⟨cs, hhistory, ?_, hmem, ?_, hnewest.imp ?_⟩
  · rw [hids, List.map_reverse, hchronicle.ids_eq]
  · have hrows : s.rows.reverse.Pairwise fun a b => b.id.val < a.id.val :=
      List.pairwise_reverse.2 (hchronicle.inOrder.imp fun h => h.1)
    have hmap : (s.rows.reverse.map Row.id).Pairwise fun i j => j.val < i.val :=
      List.pairwise_map.2 hrows
    rw [← hids] at hmap
    exact List.pairwise_map.1 hmap
  · rintro a b (hbefore | ⟨heq, -⟩)
    · exact hbefore.asymm
    · rw [heq]
      exact fun h => h.asymm h

/-- A clock that does not go back is steady as long as it shows no leap second within a minute. -/
theorem steady_of_isRegular {visits : List Visit}
    (hforward : visits.Pairwise fun v w => ¬ w.now.Before v.now)
    (hregular : ∀ v ∈ visits, v.now.IsRegular)
    (hfour : ∀ v ∈ visits, 0 ≤ v.now.date.year ∧ v.now.date.year ≤ 9999) : Steady visits where
  forward := by
    refine hforward.imp_of_mem fun hv hw hbefore => ?_
    rwa [Instant.asWritten_eq_self_iff.2 (hregular _ hv),
      Instant.asWritten_eq_self_iff.2 (hregular _ hw)]
  fourDigits := hfour

/-- Three expressions are filed within a microsecond, and the second one is erased. -/
def withinMicrosecond (t : Instant) : List Visit :=
  [⟨t.atNanosecond 1 (by decide), .ask (.create "1")⟩,
    ⟨t.atNanosecond 2 (by decide), .ask (.create "2")⟩,
    ⟨t.atNanosecond 2 (by decide), .send ⟨"DELETE", "/calculations/2", none, []⟩⟩,
    ⟨t.atNanosecond 3 (by decide), .ask (.create "3")⟩]

/-- The history of a microsecond in 2024 is the order of filing reversed. -/
theorem history_reverses_microsecond :
    let visits := withinMicrosecond (newYear 2024 (by decide))
    Steady visits ∧ (∀ n ∈ (run 9 visits).log, n.rewritten? = none) ∧
    (survivors (run 9 visits).log).map CalculationId.val = [1, 3] ∧
    ∃ cs, Journal.history.run (run 9 visits).repository
        = (.ok cs, (run 9 visits).repository) ∧
      cs.map Calculation.id = (survivors (run 9 visits).log).reverse ∧
      (∀ c, c ∈ cs ↔ ((Journal.get c.id).run (run 9 visits).repository).1 = .ok c) ∧
      cs.Pairwise (fun a b => b.id.val < a.id.val) ∧
      cs.Pairwise fun a b => ¬ a.created.Before b.created := by
  have hsteady : Steady (withinMicrosecond (newYear 2024 (by decide))) :=
    steady_of_isRegular (by decide) (by decide) (by decide)
  have hupdates : ∀ n ∈ (run 9 (withinMicrosecond (newYear 2024 (by decide)))).log,
      n.rewritten? = none := by decide +kernel
  exact ⟨hsteady, hupdates, by decide +kernel, history_reverses_filing 9 hsteady hupdates⟩

/-- One expression is filed late in a leap second within a minute, and one early in the second
behind it. -/
def acrossLeapSecond : List Visit :=
  [⟨leapWithinMinute.atNanosecond 1900000000 (by decide), .ask (.create "1")⟩,
    ⟨leapWithinMinute.asWritten.atNanosecond 200000000 (by decide), .ask (.create "2")⟩]

/-- The clock does not go back from a leap second to the second behind it, and still the history
lists first what was filed first. -/
theorem history_keeps_leapWithinMinute :
    (acrossLeapSecond.Pairwise fun v w => ¬ w.now.Before v.now) ∧
    (∀ v ∈ acrossLeapSecond, 0 ≤ v.now.date.year ∧ v.now.date.year ≤ 9999) ∧
    (∀ n ∈ (run 9 acrossLeapSecond).log, n.rewritten? = none) ∧
    ∃ cs, Journal.history.run (run 9 acrossLeapSecond).repository
        = (.ok cs, (run 9 acrossLeapSecond).repository) ∧
      cs.map Calculation.id ≠ (survivors (run 9 acrossLeapSecond).log).reverse := by
  obtain ⟨s, hs, hcourse⟩ := course_run 9 acrossLeapSecond
  obtain ⟨cs, hhistory, -, hmem, hlisted, -⟩ := hcourse.keptBy.run_listings
  rw [← hs] at hhistory hmem
  refine ⟨by decide, by decide, by decide +kernel, cs, hhistory, fun hreverse => ?_⟩
  let first : CalculationId := ⟨1, by decide, by decide⟩
  let second : CalculationId := ⟨2, by decide, by decide⟩
  have hsurvivors : (survivors (run 9 acrossLeapSecond).log).reverse = [second, first] := by
    decide +kernel
  have hread : ∀ c ∈ cs, ∀ id, c.id = id →
      ((Journal.get id).run (run 9 acrossLeapSecond).repository).1.toOption = some c := by
    rintro c hc _ rfl
    rw [(hmem c).1 hc]
    rfl
  rw [hsurvivors] at hreverse
  -- the one of the second expression is listed first, and the other one is dated behind it
  obtain ⟨a, rest, rfl, ha, hrest⟩ := List.map_eq_cons_iff.1 hreverse
  obtain ⟨b, rest, rfl, hb, -⟩ := List.map_eq_cons_iff.1 hrest
  have habove : a.ListedAbove b := (List.pairwise_cons.1 hlisted).1 b (by simp)
  have hdates : ((Journal.get first).run (run 9 acrossLeapSecond).repository).1.toOption.map
        Calculation.created
        = some (leapWithinMinute.asWritten.atNanosecond 900000000 (by decide)) ∧
      ((Journal.get second).run (run 9 acrossLeapSecond).repository).1.toOption.map
        Calculation.created
        = some (leapWithinMinute.asWritten.atNanosecond 200000000 (by decide)) := by
    decide +kernel
  rw [hread a (by simp) second ha, hread b (by simp) first hb] at hdates
  have hb := Option.some.inj hdates.1
  have ha := Option.some.inj hdates.2
  rcases habove with hyear | ⟨-, hbefore | ⟨hsame, -⟩⟩
  · rw [ha, hb] at hyear
    exact absurd hyear (by decide)
  · rw [ha, hb] at hbefore
    exact absurd hbefore (by decide)
  · rw [ha, hb] at hsame
    exact absurd hsame (by decide)

end Service

end CalcJournal
