/-
CalcJournal.Proofs.Service.Search — what a search finds.

A calculation mentions a text when the text occurs in one of four others: the label of its
category, the digits of its id, its expression, and its date with six fraction digits. An
occurrence is contiguous and no character stands for another one, so a text that occurs in a
second one is mentioned wherever the second one is.

A request for a search spells its text in the last segment of its path. The segment stands for
the text whatever it holds, and what is answered is that part of the history that mentions it.
-/
import CalcJournal.Proofs.Http.Readback
import CalcJournal.Proofs.Http.Spelling
import CalcJournal.Proofs.Journal.Listing
import CalcJournal.Proofs.Service.Run

namespace CalcJournal

/-! ## 1. Occurrences -/

namespace Text

/-- A text occurs in another one, which has something before it and behind it. -/
def Occurs (text column : String) : Prop :=
  ∃ before behind, column.toList = before ++ text.toList ++ behind

instance (text column : String) : Decidable (Occurs text column) :=
  decidable_of_iff _ occursIn_iff

theorem Occurs.trans {a b column : String} (hab : Occurs a b) (hb : Occurs b column) :
    Occurs a column := by
  obtain ⟨before, behind, hab⟩ := hab
  obtain ⟨before', behind', hb⟩ := hb
  refine ⟨before' ++ before, behind ++ behind', ?_⟩
  rw [hb, hab]
  simp only [List.append_assoc]

theorem occurs_empty (column : String) : Occurs "" column := ⟨[], column.toList, rfl⟩

end Text

open Text (Occurs)

namespace Calculation

/-- A calculation mentions a text. -/
def Mentions (c : Calculation) (text : String) : Prop :=
  Occurs text c.category.label ∨ Occurs text c.id.text ∨ Occurs text c.expression ∨
    Occurs text (c.created.text .microseconds)

instance (c : Calculation) (text : String) : Decidable (c.Mentions text) :=
  inferInstanceAs (Decidable (_ ∨ _))

variable {c : Calculation} {text : String}

/-- The row of a calculation mentions what the calculation mentions. -/
theorem mentions_row : c.row.mentions text = decide (c.Mentions text) := by
  rw [Bool.eq_iff_iff, decide_eq_true_eq, Mentions, ← Row.created_row]
  simp only [Row.mentions, Bool.or_eq_true, Text.occursIn_iff, or_assoc]
  rfl

theorem Mentions.of_occurs {longer : String} (h : c.Mentions longer) (ho : Occurs text longer) :
    c.Mentions text :=
  h.imp ho.trans (.imp ho.trans (.imp ho.trans ho.trans))

theorem mentions_empty (c : Calculation) : c.Mentions "" := .inl (Text.occurs_empty _)

end Calculation

/-! ## 2. Searching -/

namespace Http

variable {context : Context} {r : Request} {segment : List Char} {text : String}

/-- A request for what a segment spells asks the journal for the text that is spelled. -/
theorem answer_search (htext : text ≠ "")
    (hspells : Target.Spells segment (Utf8.encode text.toList))
    (hmethod : r.method = "GET") (htarget : r.target = searchTarget segment) :
    answer context r = respond (listResponse ("No calculations match '" ++ text ++ "'"))
      (Journal.search text) := by
  have hbytes : Utf8.encode text.toList ≠ [] := by
    intro hnil
    have hread := Utf8.decode?_encode text.toList
    rw [hnil] at hread
    exact htext (String.toList_eq_nil_iff.1 (Option.some.inj hread).symm)
  have hroute : Route.ofPath? (Target.path r.target.toList) = some (.search segment) := by
    rw [htarget, ofPath?_searchTarget hspells hbytes]
  have hendpoint : (Route.search segment).endpoint? r.method = some (.search segment) := by
    rw [hmethod]
    rfl
  rw [answer_of_endpoint hroute hendpoint (by rw [hmethod]; decide), Endpoint.answer,
    readPredicate_of_spells hspells]

/-- Nothing is wrong with a request for what a segment spells, unless it is too long. -/
theorem fault?_search {bytes : List UInt8} (hspells : Target.Spells segment bytes)
    (hmethod : r.method = "GET") (htarget : r.target = searchTarget segment) :
    r.fault? = none ↔ r.target.utf8ByteSize ≤ Target.lengthLimit := by
  have hname : isName "GET".toList = true := by decide
  rw [Request.fault?, hmethod, hname, htarget, ← isTarget_searchTarget hspells]
  cases Target.isTarget (searchTarget segment) <;> simp

end Http

/-- What a request for a search is answered with, and what it tells of the history. -/
structure Http.Finds (context : Context) (r : Request) (repository : Repository) (text : String)
    (history : List Calculation) : Prop where
  history_eq : Journal.history.run repository = (.ok history, repository)
  distinct : history.Pairwise fun a b => a.id ≠ b.id
  /-- Some calculations mention the text: they are sent, in the order of the history. -/
  found : (∃ c ∈ history, c.Mentions text) → (answer context r).run repository
    = (.json 200 (.calculations (history.filter fun c => c.Mentions text)), repository)
  /-- No calculation does. -/
  notFound : (∀ c ∈ history, ¬ c.Mentions text) → (answer context r).run repository
    = (.problem (.notFound ("No calculations match '" ++ text ++ "'")), repository)
  status_eq : ((answer context r).run repository).1.status = 404 ↔
    ∀ c ∈ history, ¬ c.Mentions text
  /-- Only its length may be wrong with the request. -/
  fault_eq : r.fault? = none ↔ r.target.utf8ByteSize ≤ Target.lengthLimit
  /-- The journal itself may be searched for the empty text, and every calculation is found. -/
  empty_eq : (Journal.search "").run repository = (.ok history, repository)
  /-- What mentions a longer text is found by every part of it. -/
  mentions : ∀ longer, Occurs text longer → ∀ c : Calculation, c.Mentions longer → c.Mentions text

namespace Service

/-- **A search finds exactly what mentions its text.** After every run, a request whose last
segment spells a text, whatever characters the text has, is answered with that part of the
history whose label, id, expression or stored date the text occurs in, in the same order, and
with 404 exactly when there is none. -/
theorem search_finds (limit : Nat) (visits : List Visit) (now : Instant) {r : Http.Request}
    {text : String} {segment : List Char} (htext : text ≠ "")
    (hspells : Http.Target.Spells segment (Utf8.encode text.toList))
    (hmethod : r.method = "GET") (htarget : r.target = Http.searchTarget segment) :
    ∃ history, Http.Finds ⟨limit, now⟩ r (run limit visits).repository text history := by
  obtain ⟨s, hs, hcourse⟩ := course_run limit visits
  obtain ⟨history, hhistory, hdistinct, -, -, hsearch⟩ := hcourse.keptBy.run_listings
  simp only [Calculation.mentions_row] at hsearch
  have hanswer : ∀ matching, (history.filter fun c => c.Mentions text) = matching →
      (Http.answer ⟨limit, now⟩ r).run (.working s)
        = (Http.listResponse ("No calculations match '" ++ text ++ "'") matching, .working s) := by
    rintro _ rfl
    rw [Http.answer_search htext hspells hmethod htarget, Http.run_respond, hsearch]
  have hfound : (∃ c ∈ history, c.Mentions text) → (Http.answer ⟨limit, now⟩ r).run (.working s)
      = (.json 200 (.calculations (history.filter fun c => c.Mentions text)), .working s) := by
    rintro ⟨c, hc, hmentions⟩
    have hmem : c ∈ history.filter fun c => c.Mentions text :=
      List.mem_filter.2 ⟨hc, decide_eq_true hmentions⟩
    rw [hanswer _ rfl]
    cases hmatching : history.filter fun c => c.Mentions text with
    | nil => simp [hmatching] at hmem
    | cons d matching => rfl
  have hnone : (∀ c ∈ history, ¬ c.Mentions text) → (Http.answer ⟨limit, now⟩ r).run (.working s)
      = (.problem (.notFound ("No calculations match '" ++ text ++ "'")), .working s) := by
    intro hnot
    exact hanswer [] (List.filter_eq_nil_iff.2 fun c hc => by simpa using hnot c hc)
  rw [hs]
  refine ⟨history, hhistory, hdistinct, hfound, hnone, ?_,
    Http.fault?_search hspells hmethod htarget, ?_, ?_⟩
  · constructor
    · intro hstatus c hc hmentions
      rw [hfound ⟨c, hc, hmentions⟩] at hstatus
      have h200 : (200 : Nat) = 404 := hstatus
      omega
    · intro hnot
      rw [hnone hnot]
      rfl
  · rw [hsearch, List.filter_eq_self.2 fun c _ => decide_eq_true c.mentions_empty]
  · intro longer hoccurs c hmentions
    exact hmentions.of_occurs hoccurs

/-- A quarter is filed, and searched for by its slash and what follows. -/
theorem search_finds_slash :
    Http.Target.Spells (Http.Target.escaped (Utf8.encode "/4".toList)) (Utf8.encode "/4".toList) ∧
    ∃ history, Http.Finds ⟨9, newYear 2024 (by decide)⟩
      (Http.asking (Http.searchTarget (Http.Target.escaped (Utf8.encode "/4".toList))))
      (run 9 [⟨newYear 2024 (by decide), .send (Http.filing "1/4")⟩]).repository "/4" history := by
  have hspells := Http.Target.spells_escaped (Utf8.encode "/4".toList)
  exact ⟨hspells, search_finds 9 _ _ (by decide) hspells rfl rfl⟩

/-- The quarter is found, and no wildcard stands for its slash. -/
example :
    let left := (run 9 [⟨newYear 2024 (by decide), .send (Http.filing "1/4")⟩]).repository
    let status := fun text : String => ((Http.answer ⟨9, newYear 2024 (by decide)⟩
      (Http.asking (Http.searchTarget
        (Http.Target.escaped (Utf8.encode text.toList))))).run left).1.status
    status "1/4" = 200 ∧ status "1_4" = 404 ∧ status "1%" = 404 := by
  decide +kernel

end Service

end CalcJournal
