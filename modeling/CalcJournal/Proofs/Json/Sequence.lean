/-
CalcJournal.Proofs.Json.Sequence — a list is read back from its tokens.

Values are written with commas between them. Each is read by its own reader whatever follows it,
so a list is read by induction along its values: a comma means that one more follows, and the
closing bracket that there is none. For calculations the condition on the reader is that their
fields are set whatever follows.
-/
import CalcJournal.Json.Sequence
import CalcJournal.Proofs.Json.Calculation

namespace CalcJournal.Json

/-! ## 1. Tokens one after the other -/

/-- Two documents are told apart, unless the second starts with a number. -/
theorem isWritten_append {ts us : List Token} (hts : IsWritten ts) (hus : IsWritten us)
    (hnext : ∀ u ∈ us.head?, u.isNumber = false) : IsWritten (ts ++ us) := by
  induction ts with
  | nil => exact hus
  | cons t ts ih =>
    obtain ⟨hspelled, hinside, hwritten⟩ := hts
    refine ⟨hspelled, fun hnumber => ?_, ih hwritten⟩
    cases ts with
    | nil => exact hnext
    | cons u ts => exact hinside hnumber

theorem separated_cons_cons (item other : List Token) (items : List (List Token)) :
    separated (item :: other :: items) = item ++ .comma :: separated (other :: items) := rfl

/-- Items that are told apart are so with commas between them. -/
theorem isWritten_separated : ∀ {items : List (List Token)},
    (∀ item ∈ items, IsWritten item) → IsWritten (separated items)
  | [], _ => trivial
  | [item], h => h item (by simp)
  | item :: other :: items, h => by
      have hrest : IsWritten (separated (other :: items)) :=
        isWritten_separated fun next hnext => h next (List.mem_cons_of_mem item hnext)
      rw [separated_cons_cons]
      exact isWritten_append (h item (by simp)) ⟨trivial, by simp [Token.isNumber], hrest⟩
        (by simp [Token.isNumber])

/-- The tokens of a list of calculations are told apart when they are written. -/
theorem isWritten_calculationListTokens (cs : List Calculation) :
    IsWritten (calculationListTokens cs) := by
  have hitems : IsWritten (separated (cs.map calculationTokens)) := by
    refine isWritten_separated fun item hitem => ?_
    obtain ⟨c, -, rfl⟩ := List.mem_map.1 hitem
    exact isWritten_calculationTokens c
  have hclose : IsWritten [.closeArray] := ⟨trivial, by simp, trivial⟩
  exact ⟨trivial, by simp [Token.isNumber],
    isWritten_append hitems hclose (by simp [Token.isNumber])⟩

theorem exists_separated (item : List Token) (items : List (List Token)) :
    ∃ more, separated (item :: items) = item ++ more := by
  cases items with
  | nil => exact ⟨[], by simp [separated]⟩
  | cons other items => exact ⟨_, separated_cons_cons item other items⟩

/-! ## 2. Lists -/

section Lists

variable {β : Type} {r : Reader β} {ts rest : List Token} {b : β}

/-- A value in front of a comma is followed by another. -/
theorem readItems_comma {index : Nat} {bs : List β} {after : List Token}
    (hread : r.run ts = .ok (b, .comma :: rest))
    (hmore : readItems r (index + 1) rest = .ok (bs, after)) :
    readItems r index ts = .ok (b :: bs, after) := by
  rw [readItems]
  split
  case h_1 e herror => rw [hread] at herror; simp at herror
  case h_2 b' rest' hok =>
    rw [hread] at hok
    obtain ⟨rfl, hrest⟩ := Prod.mk.inj (Except.ok.inj hok)
    obtain ⟨-, rfl⟩ := List.cons.inj hrest
    rw [hmore]
  case h_3 b' rest' hok => rw [hread] at hok; simp at hok
  case h_4 p hcomma _ hok =>
    rw [hread] at hok
    exact absurd (Except.ok.inj hok).symm (hcomma b rest)

/-- The last value is in front of the closing bracket. -/
theorem readItems_close (index : Nat) (hread : r.run ts = .ok (b, .closeArray :: rest)) :
    readItems r index ts = .ok ([b], rest) := by
  rw [readItems]
  split
  case h_1 e herror => rw [hread] at herror; simp at herror
  case h_2 b' rest' hok => rw [hread] at hok; simp at hok
  case h_3 b' rest' hok =>
    rw [hread] at hok
    obtain ⟨rfl, hrest⟩ := Prod.mk.inj (Except.ok.inj hok)
    obtain ⟨-, rfl⟩ := List.cons.inj hrest
    rfl
  case h_4 p _ hclose hok =>
    rw [hread] at hok
    exact absurd (Except.ok.inj hok).symm (hclose b rest)

variable {α : Type} {tokens : α → List Token} {shown : α → β}
  (hread : ∀ a rest, r.run (tokens a ++ rest) = .ok (shown a, rest))

include hread

/-- Values with commas between them are read up to the end of the array. -/
theorem readItems_separated : ∀ (a : α) (as : List α) (index : Nat),
    readItems r index (separated ((a :: as).map tokens) ++ .closeArray :: rest)
      = .ok ((a :: as).map shown, rest)
  | a, [], index => readItems_close index (hread a _)
  | a, other :: as, index => by
      have hmore := readItems_separated other as (index + 1)
      refine readItems_comma ?_ hmore
      rw [List.map_cons, List.map_cons, separated_cons_cons, List.append_assoc, hread]
      rfl

/-- A list is read as what each of its values shows, if none of them starts like the end of the
array. -/
theorem readList_separated (hopen : ∀ a, ∃ ts, tokens a = .openObject :: ts) (as : List α) :
    readList r (.openArray :: (separated (as.map tokens) ++ [.closeArray]))
      = .ok (as.map shown) := by
  cases as with
  | nil => rfl
  | cons a as =>
    have hitems : readItems r 0 (separated ((a :: as).map tokens) ++ [.closeArray])
        = .ok ((a :: as).map shown, []) := readItems_separated hread a as 0
    obtain ⟨ts, hts⟩ := hopen a
    obtain ⟨more, hmore⟩ := exists_separated (tokens a) (as.map tokens)
    rw [List.map_cons, hmore, hts, List.cons_append, List.cons_append] at hitems ⊢
    simp only [readList, hitems]
    rfl

end Lists

/-! ## 3. Calculations -/

/-- A calculation is read as it is written, inside a longer text too. -/
theorem run_reader_calculation (c : Calculation) (rest : List Token) :
    calculationShape.reader.run (calculationTokens c ++ rest) = .ok (c.asWritten, rest) := by
  have hfields := readFields_calculationTokens c rest
  simp only [Shape.reader, Shape.readFront, hfields]
  rfl

/-- **The tokens of a list of calculations are read as that list**, each as it is written. -/
theorem readList_calculations (cs : List Calculation) :
    readList calculationShape.reader (calculationListTokens cs)
      = .ok (cs.map Calculation.asWritten) :=
  readList_separated run_reader_calculation (fun _ => ⟨_, rfl⟩) cs

end CalcJournal.Json
