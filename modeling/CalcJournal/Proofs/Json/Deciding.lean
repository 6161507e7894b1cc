/-
CalcJournal.Proofs.Json.Deciding — what denotes a field of a calculation, and that the value alone
decides.

Each field has a type, and `Denotes` says which values of JSON stand for which values of it. A
reader takes a value that denotes something, whatever follows, and refuses any other value with a
fault that does not depend on what follows (`Reader.Decides`). For most fields the first token is
enough for that. A category may be the name in an object, so it takes more of it; and a value that
is no result is passed over as a whole before it is refused.
-/
import CalcJournal.Json.Calculation
import CalcJournal.Proofs.Calendar.Offset
import CalcJournal.Proofs.Json.Skipping
import CalcJournal.Proofs.Json.Spelling

namespace CalcJournal.Json

open Text

/-! ## 1. What denotes what -/

/-- An id is spelled by digits. A zero behind a minus is no integer, it is the negative zero. -/
inductive DenotesId (id : CalculationId) : List Token → Prop
  | digits {n : Number} (hinteger : n.fraction = [] ∧ n.exponent = none)
      (hvalue : (if n.negative then -(digitsValue n.whole : Int) else digitsValue n.whole) = id.val)
      (hzero : n.negative = true → digitsValue n.whole ≠ 0) : DenotesId id [.number n]

/-- A category is denoted by its label, or by an object in which it names a null. -/
inductive DenotesCategory (c : Category) : List Token → Prop
  | label : DenotesCategory c [.string (some c.label.toList)]
  | object : DenotesCategory c
      [.openObject, .string (some c.label.toList), .colon, .null, .closeObject]

inductive DenotesText (s : String) : List Token → Prop
  | string : DenotesText s [.string (some s.toList)]

/-- An instant is denoted by its date and time at any offset. -/
inductive DenotesInstant (t : Instant) : List Token → Prop
  | date {cs : List Char} (h : Rfc3339.IsDateTime cs t) : DenotesInstant t [.string (some cs)]

/-- A finite double is denoted by the numbers to which it is nearest, and the others by words. -/
inductive DenotesDouble (x : Binary64) : List Token → Prop
  | number {n : Number} (h : n.nearest = x) (hfinite : x.isFinite = true) :
      DenotesDouble x [.number n]
  | word {word : String} (h : (word, x) ∈
      [("NaN", Binary64.nan), ("Infinity", .infinite false), ("-Infinity", .infinite true)]) :
      DenotesDouble x [.string (some word.toList)]

/-! ## 2. Values decide -/

/-- A reader takes the values that denote something, and refuses the other values of JSON, both
whatever follows. -/
structure Reader.Decides {β : Type} (r : Reader β) (D : β → List Token → Prop) : Prop where
  takes {b : β} {v : List Token} (h : D b v) (rest : List Token) : r.run (v ++ rest) = .ok (b, rest)
  refuses {v : List Token} (h : IsValue v) (hnot : ∀ b, ¬ D b v) :
    ∃ e, ∀ rest, r.run (v ++ rest) = .error e

/-- A value starts with a token, behind which nothing stands if that is a scalar. -/
theorem IsValue.exists_cons {v : List Token} (h : IsValue v) :
    ∃ t more, v = t :: more ∧ (t.isScalar = true → more = []) := by
  cases h with
  | scalar h => exact ⟨_, _, rfl, fun _ => rfl⟩
  | emptyArray => exact ⟨_, _, rfl, by simp [Token.isScalar]⟩
  | array h => exact ⟨_, _, rfl, by simp [Token.isScalar]⟩
  | emptyObject => exact ⟨_, _, rfl, by simp [Token.isScalar]⟩
  | object h => exact ⟨_, _, rfl, by simp [Token.isScalar]⟩

/-! ### Ids, texts and instants -/

theorem integer?_eq_some_iff {n : Number} {id : CalculationId} :
    n.integer? = some id.val ↔ DenotesId id [.number n] := by
  have hlow := id.low
  have hhigh := id.high
  rw [Number.integer?]
  constructor
  · intro h
    split at h
    case isTrue => simp at h
    case isFalse hspelled =>
      simp only [Bool.or_eq_true, Bool.not_eq_true', not_or, Bool.not_eq_false,
        List.isEmpty_iff, Bool.not_eq_true, Option.isSome_eq_false_iff, Option.isNone_iff_eq_none]
        at hspelled
      dsimp only at h
      refine .digits hspelled ?_ ?_
      · split at h <;> grind
      · split at h <;> grind
  · intro h
    cases h with
    | digits hinteger hvalue hzero =>
      rw [hinteger.1, hinteger.2, if_neg (by simp)]
      dsimp only
      split <;> grind

theorem val_of_ofInt? {i : Int} {id : CalculationId} (h : CalculationId.ofInt? i = some id) :
    id.val = i := by
  unfold CalculationId.ofInt? at h
  split at h
  · rw [← Option.some.inj h]
  · simp at h

theorem numeral?_integer {n : Number} {i : Int} (h : n.numeral? = some (.integer i)) :
    n.integer? = some i := by
  unfold Number.numeral? at h
  split at h
  case h_1 j hj =>
    rw [Option.some.injEq, Numeral.integer.injEq] at h
    rw [hj, h]
  case h_2 => split at h <;> simp at h

theorem readId_decides : readId.Decides DenotesId where
  takes {id v} h rest := by
    obtain ⟨n, rfl⟩ : ∃ n, v = [.number n] := by
      cases h with
      | digits => exact ⟨_, rfl⟩
    have hnumeral : n.numeral? = some (.integer id.val) := by
      rw [Number.numeral?, integer?_eq_some_iff.2 h]
    simp only [readId, Reader.ofToken, List.cons_append, hnumeral, CalculationId.ofInt?_val]
    rfl
  refuses {v} h hnot := by
    obtain ⟨t, more, rfl, hscalar⟩ := h.exists_cons
    cases t with
    | number n =>
      obtain rfl := hscalar rfl
      cases hnumeral : n.numeral? with
      | none =>
        refine ⟨.wrongType "i64" [.number n], fun rest => ?_⟩
        simp only [readId, Reader.ofToken, List.cons_append, hnumeral]
        rfl
      | some numeral =>
        cases numeral with
        | floating negative rank =>
          refine ⟨.wrongType "i64" [.number n], fun rest => ?_⟩
          simp only [readId, Reader.ofToken, List.cons_append, hnumeral]
          rfl
        | integer i =>
          cases hid : CalculationId.ofInt? i with
          | none =>
            refine ⟨.mismatch [] (.invalidInteger i "i64"), fun rest => ?_⟩
            simp only [readId, Reader.ofToken, List.cons_append, hnumeral, hid]
            rfl
          | some id =>
            rw [← val_of_ofInt? hid] at hnumeral
            exact absurd (integer?_eq_some_iff.1 (numeral?_integer hnumeral)) (hnot id)
    | _ => exact ⟨_, fun _ => rfl⟩

/-- A reader of texts decides by the text. -/
theorem readText_decides {β : Type} {expected : String} {f : List Char → Except Mismatch β}
    {D : β → List Token → Prop} (hD : ∀ b v, D b v ↔ ∃ cs, v = [.string (some cs)] ∧ f cs = .ok b) :
    (readText expected f).Decides D where
  takes {b v} h rest := by
    obtain ⟨cs, rfl, hf⟩ := (hD b v).1 h
    simp only [readText, Reader.ofToken, List.cons_append, hf]
    rfl
  refuses {v} h hnot := by
    obtain ⟨t, more, rfl, hscalar⟩ := h.exists_cons
    cases t with
    | string text =>
      obtain rfl := hscalar rfl
      cases text with
      | none => exact ⟨_, fun _ => rfl⟩
      | some cs =>
        cases hf : f cs with
        | ok b => exact absurd ((hD b _).2 ⟨cs, rfl, hf⟩) (hnot b)
        | error cause =>
          refine ⟨.mismatch [] cause, fun rest => ?_⟩
          simp only [readText, Reader.ofToken, List.cons_append, hf]
          rfl
    | _ => exact ⟨_, fun _ => rfl⟩

theorem readString_decides : readString.Decides DenotesText :=
  readText_decides fun b v => by
    constructor
    · rintro ⟨⟩
      exact ⟨_, rfl, by rw [String.ofList_toList]⟩
    · rintro ⟨cs, rfl, h⟩
      obtain rfl := Except.ok.inj h
      have hcs : cs = (String.ofList cs).toList := String.toList_ofList.symm
      conv => arg 2; rw [hcs]
      exact .string

theorem readInstant_decides : readInstant.Decides DenotesInstant :=
  readText_decides fun t v => by
    constructor
    · rintro ⟨h⟩
      exact ⟨_, rfl, by rw [Rfc3339.readChars?_eq_some_iff.2 h]⟩
    · rintro ⟨cs, rfl, h⟩
      cases hread : Rfc3339.readChars? cs with
      | none => simp [hread] at h
      | some u =>
        rw [hread] at h
        obtain rfl := Except.ok.inj h
        exact .date (Rfc3339.readChars?_eq_some_iff.1 hread)

/-! ### Categories -/

theorem category_eq_ok_iff {label : List Char} {c : Category} :
    category label = .ok c ↔ label = c.label.toList := by
  rw [category]
  constructor
  · intro h
    split at h
    case h_1 d hd =>
      obtain rfl := Except.ok.inj h
      rw [Category.label_of_ofLabel? hd, String.toList_ofList]
    case h_2 => simp at h
  · rintro rfl
    rw [String.ofList_toList, Category.ofLabel?_label]

/-- What is behind the label in an object is a null and the end of the object, or a fault that
depends on the value only. -/
theorem readCategoryEnd_value {v : List Token} (h : IsValue v) (t : Token)
    (ht : t = .closeObject ∨ t = .comma) :
    v = [.null] ∧ t = .closeObject ∨
      ∃ e, ∀ rest, readCategoryEnd (.colon :: (v ++ t :: rest)) = .error e := by
  obtain ⟨u, more, rfl, hscalar⟩ := h.exists_cons
  cases u with
  | null =>
    obtain rfl := hscalar rfl
    rcases ht with rfl | rfl
    · exact .inl ⟨rfl, rfl⟩
    · exact .inr ⟨.malformed, fun rest => rfl⟩
  | _ => exact .inr ⟨_, fun rest => rfl⟩

/-- An object that is not empty starts with a name and a value, behind which it ends or goes on. -/
theorem IsPart.exists_member {ts : List Token} (h : IsPart .members ts) :
    ∃ name v t more, IsValue v ∧ (t = .closeObject ∧ more = [] ∨ t = .comma) ∧
      ts ++ [.closeObject] = .string name :: .colon :: (v ++ t :: more) := by
  cases h with
  | @lastMember name v h => exact ⟨name, v, .closeObject, [], h, .inl ⟨rfl, rfl⟩, by simp⟩
  | @member name v more h hmore =>
    exact ⟨name, v, .comma, more ++ [.closeObject], h, .inr rfl, by simp⟩

theorem readCategory_decides : readCategory.Decides DenotesCategory where
  takes {c v} h rest := by
    have hlabel : category c.label.toList = .ok c := category_eq_ok_iff.2 rfl
    cases h with
    | label =>
      simp only [readCategory, List.cons_append, readCategoryTokens, hlabel, List.nil_append]
    | object =>
      simp only [readCategory, List.cons_append, readCategoryTokens, hlabel, List.nil_append,
        readCategoryEnd]
  refuses {v} h hnot := by
    cases h with
    | @scalar t h =>
      cases t with
      | string text =>
        cases text with
        | none => exact ⟨_, fun _ => rfl⟩
        | some label =>
          cases hlabel : category label with
          | ok c =>
            obtain rfl := category_eq_ok_iff.1 hlabel
            exact absurd .label (hnot c)
          | error cause =>
            refine ⟨.mismatch [] cause, fun rest => ?_⟩
            simp only [readCategory, List.cons_append, readCategoryTokens, hlabel]
      | openObject => simp [Token.isScalar] at h
      | _ => exact ⟨_, fun _ => rfl⟩
    | emptyArray => exact ⟨_, fun _ => rfl⟩
    | array => exact ⟨_, fun _ => rfl⟩
    | emptyObject => exact ⟨_, fun _ => rfl⟩
    | @object ts h =>
      obtain ⟨name, v, t, more, hv, ht, htext⟩ := h.exists_member
      rw [htext] at hnot ⊢
      cases name with
      | none => exact ⟨_, fun _ => rfl⟩
      | some label =>
        cases hlabel : category label with
        | error cause =>
          refine ⟨.mismatch [] cause, fun rest => ?_⟩
          simp only [readCategory, List.cons_append, readCategoryTokens, hlabel]
        | ok c =>
          obtain rfl := category_eq_ok_iff.1 hlabel
          rcases readCategoryEnd_value hv t (ht.imp_left And.left) with ⟨rfl, rfl⟩ | ⟨e, he⟩
          · obtain ⟨-, rfl⟩ | hcomma := ht
            · exact absurd .object (hnot c)
            · simp at hcomma
          · refine ⟨e.within (.field c.label), fun rest => ?_⟩
            simp only [readCategory, List.cons_append, readCategoryTokens, hlabel,
              List.append_assoc, he]

/-! ### Doubles -/

theorem denotesDouble_of_doubleWord {word : List Char} {x : Binary64}
    (h : doubleWord word = .ok x) : DenotesDouble x [.string (some word)] := by
  unfold doubleWord at h
  split at h
  case isTrue hword =>
    obtain rfl := Except.ok.inj h
    exact hword ▸ .word (by simp)
  split at h
  case isTrue hword =>
    obtain rfl := Except.ok.inj h
    exact hword ▸ .word (by simp)
  split at h
  case isTrue hword =>
    obtain rfl := Except.ok.inj h
    exact hword ▸ .word (by simp)
  case isFalse => simp at h

/-- What is no number and no text is looked at as a whole and refused. -/
theorem readDouble_other {t : Token} {more : List Token} (h : IsValue (t :: more))
    (hnumber : ∀ n, t ≠ .number n) (htext : ∀ cs, t ≠ .string (some cs)) :
    ∃ e, ∀ rest, readDouble.run (t :: more ++ rest) = .error e := by
  have hother {ts : List Token} : readDoubleTokens (t :: ts) = .error (.mismatch [] .noDouble) ∧
      (skip admitsPlain (t :: ts)).isSome = true ∨
      readDoubleTokens (t :: ts) = .error .malformed ∧ skip admitsPlain (t :: ts) = none := by
    unfold readDoubleTokens
    split
    case h_1 heq => exact absurd (List.cons.inj heq).1 (hnumber _)
    case h_2 heq => exact absurd (List.cons.inj heq).1 (htext _)
    case h_3 => split <;> simp_all
  rcases skip_append_or h admitsPlain with hpass | ⟨-, hfail⟩
  · refine ⟨.mismatch [] .noDouble, fun rest => ?_⟩
    rcases @hother (more ++ rest) with ⟨hread, -⟩ | ⟨-, hnone⟩
    · exact hread
    · exact absurd (hpass rest) (by rw [List.cons_append, hnone]; simp)
  · refine ⟨.malformed, fun rest => ?_⟩
    rcases @hother (more ++ rest) with ⟨-, hsome⟩ | ⟨hread, -⟩
    · rw [← List.cons_append, hfail rest] at hsome
      simp at hsome
    · exact hread

theorem readDouble_decides : readDouble.Decides DenotesDouble where
  takes {x v} h rest := by
    cases h with
    | number h hfinite =>
      subst h
      simp only [readDouble, List.cons_append, List.nil_append, readDoubleTokens, hfinite, if_true]
    | word h =>
      simp only [List.mem_cons, Prod.mk.injEq, List.not_mem_nil, or_false] at h
      rcases h with ⟨rfl, rfl⟩ | ⟨rfl, rfl⟩ | ⟨rfl, rfl⟩ <;> rfl
  refuses {v} h hnot := by
    obtain ⟨t, more, rfl, hscalar⟩ := h.exists_cons
    cases t with
    | number n =>
      obtain rfl := hscalar rfl
      cases hfinite : n.nearest.isFinite with
      | true => exact absurd (.number rfl hfinite) (hnot n.nearest)
      | false =>
        refine ⟨.malformed, fun rest => ?_⟩
        simp [readDouble, readDoubleTokens, hfinite]
    | string text =>
      obtain rfl := hscalar rfl
      cases text with
      | none => exact readDouble_other h (by simp) (by simp)
      | some word =>
        cases hword : doubleWord word with
        | ok x => exact absurd (denotesDouble_of_doubleWord hword) (hnot x)
        | error cause =>
          refine ⟨.mismatch [] cause, fun rest => ?_⟩
          simp only [readDouble, List.cons_append, readDoubleTokens, hword]
    | _ => exact readDouble_other h (by simp) (by simp)

end CalcJournal.Json
