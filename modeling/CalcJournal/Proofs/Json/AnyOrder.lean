/-
CalcJournal.Proofs.Json.AnyOrder — the texts from which a calculation is read.

A calculation is read from an object of its five fields in any order, with other members among
them, and from an array of their values; and its text may have any spelling. What is wrong with an
object is found in the order of the text. A member that is at fault is reported there, whatever
stands behind it, and only an object whose members are all right can lack a field.
-/
import CalcJournal.Proofs.Json.Members

namespace CalcJournal.Json

open CalculationFields

/-! ## 1. Arrays -/

/-- An array of values. -/
def arrayTokens (values : List (List Token)) : List Token :=
  .openArray :: (separated values ++ [.closeArray])

theorem separated_cons (v : List Token) (vs : List (List Token)) :
    separated (v :: vs) = v ++ vs.flatMap (.comma :: ·) := by
  induction vs generalizing v with
  | nil => simp [separated]
  | cons w vs ih => simp [separated, ih w]

section Elements

variable {c : Calculation} {k : CalculationField} {s : CalculationFields} {v rest : List Token}

/-- What denotes something starts neither with a comma nor with a closing bracket. -/
theorem CalculationField.Denotes.exists_cons (h : k.Denotes c v) :
    ∃ t more, v = t :: more ∧ t ≠ .comma ∧ t ≠ .closeArray := by
  cases k <;> cases h <;> exact ⟨_, _, rfl, by simp, by simp⟩

/-- An element that denotes the value of its field sets it. -/
theorem readElements_field {f : Field CalculationFields} {fields : List (Field CalculationFields)}
    {index : Nat} {ts : List Token} (hf : k.IsReadBy f) (h : k.Denotes c v)
    (helement : Shape.element? index ts = some (v ++ rest))
    (hclose : ∀ more, ts ≠ .closeArray :: more) :
    calculationShape.readElements index s (f :: fields) ts
      = calculationShape.readElements (index + 1) (put c k s) fields rest := by
  rw [Shape.readElements]
  · simp only [helement, hf.takes h]
  · exact hclose

theorem readElements_first {f : Field CalculationFields} {fields : List (Field CalculationFields)}
    (hf : k.IsReadBy f) (h : k.Denotes c v) :
    calculationShape.readElements 0 s (f :: fields) (v ++ rest)
      = calculationShape.readElements 1 (put c k s) fields rest := by
  obtain ⟨t, more, rfl, hcomma, hclose⟩ := h.exists_cons
  refine readElements_field hf h ?_ fun more heq => hclose (List.cons.inj heq).1
  unfold Shape.element?
  split <;> simp_all

theorem readElements_next {f : Field CalculationFields} {fields : List (Field CalculationFields)}
    (hf : k.IsReadBy f) (h : k.Denotes c v) (index : Nat) :
    calculationShape.readElements (index + 1) s (f :: fields) (.comma :: (v ++ rest))
      = calculationShape.readElements (index + 2) (put c k s) fields rest := by
  refine readElements_field hf h ?_ (by simp)
  obtain ⟨t, more, rfl, hcomma, hclose⟩ := h.exists_cons
  unfold Shape.element?
  split <;> simp_all

/-- The readers of the fields, in their order. -/
theorem exists_fields : ∃ f₁ f₂ f₃ f₄ f₅, calculationShape.fields = [f₁, f₂, f₃, f₄, f₅] ∧
    CalculationField.id.IsReadBy f₁ ∧ CalculationField.type.IsReadBy f₂ ∧
    CalculationField.expression.IsReadBy f₃ ∧ CalculationField.createDate.IsReadBy f₄ ∧
    CalculationField.result.IsReadBy f₅ := by
  obtain ⟨f₁, h₁⟩ := CalculationField.id.exists_isReadBy
  obtain ⟨f₂, h₂⟩ := CalculationField.type.exists_isReadBy
  obtain ⟨f₃, h₃⟩ := CalculationField.expression.exists_isReadBy
  obtain ⟨f₄, h₄⟩ := CalculationField.createDate.exists_isReadBy
  obtain ⟨f₅, h₅⟩ := CalculationField.result.exists_isReadBy
  refine ⟨f₁, f₂, f₃, f₄, f₅, ?_, h₁, h₂, h₃, h₄, h₅⟩
  rw [← Option.some.inj h₁.found, ← Option.some.inj h₂.found, ← Option.some.inj h₃.found,
    ← Option.some.inj h₄.found, ← Option.some.inj h₅.found]
  rfl

/-- **An array of the values in the order of the fields** is read as the calculation. -/
theorem readCalculation_array {values : CalculationField → List Token}
    (h : ∀ k : CalculationField, k.Denotes c (values k)) :
    readCalculation (arrayTokens (CalculationField.all.map values)) = .ok c := by
  obtain ⟨f₁, f₂, f₃, f₄, f₅, hfields, h₁, h₂, h₃, h₄, h₅⟩ := exists_fields
  have hread : calculationShape.readFields (arrayTokens (CalculationField.all.map values))
      = .ok (put c .result (put c .createDate (put c .expression (put c .type
          (put c .id calculationShape.empty)))), []) := by
    simp only [arrayTokens, CalculationField.all, List.map_cons, List.map_nil, separated_cons,
      List.flatMap_cons, List.flatMap_nil, List.append_assoc, List.cons_append, List.nil_append,
      Shape.readFields, hfields]
    rw [readElements_first h₁ (h .id), readElements_next h₂ (h .type),
      readElements_next h₃ (h .expression), readElements_next h₄ (h .createDate),
      readElements_next h₅ (h .result)]
    rfl
  exact Member.readCalculation_of_finish hread rfl

end Elements

/-! ## 2. Texts -/

open Member in
/-- **A calculation is read from its members in any order**, spelled in any way, and from the array
of its values. If members are lacking, the first field in the order of the fields is reported that
is; if a member is at fault, the first in the text is, whatever stands behind it. -/
theorem readCalculation_members :
    (∀ (c : Calculation) (ms : List Member) (cs : List Char), AreOf ms c →
      Spells [] cs (object ms) → readCalculation (lexBytes (Utf8.encode cs)) = .ok c) ∧
    (∀ (c : Calculation) (values : CalculationField → List Token) (cs : List Char),
      (∀ k : CalculationField, k.Denotes c (values k)) →
      Spells [] cs (arrayTokens (CalculationField.all.map values)) →
      readCalculation (lexBytes (Utf8.encode cs)) = .ok c) ∧
    (∀ (ms : List Member) (k : CalculationField) (cs : List Char), AreSound ms → ¬ Have ms k →
      (∀ j ∈ k.before, Have ms j) → Spells [] cs (object ms) →
      readCalculation (lexBytes (Utf8.encode cs)) = .error (.mismatch [] (.missingField k.name))) ∧
    (∀ (k : CalculationField) (v : List Token), IsValue v → ¬ k.HasType v →
      ∃ f e, calculationShape.field? k.name.toList = some f ∧
        (∀ rest, f.reader.run (v ++ rest) = .error e) ∧
        ∀ (ms : List Member) (cs after : List Char), AreSound ms → ¬ Have ms k →
          Spells after cs (.openObject :: (led ms ++ tokens ⟨k.name.toList, v⟩)) →
          readCalculation (lexBytes (Utf8.encode (cs ++ after)))
            = .error (e.within (.field k.name))) ∧
    ∀ (ms : List Member) (k : CalculationField) (cs after : List Char), AreSound ms → Have ms k →
      Spells after cs (.openObject :: (led ms ++ [.string (some k.name.toList)])) →
      readCalculation (lexBytes (Utf8.encode (cs ++ after)))
        = .error (.mismatch [] (.duplicateField k.name)) := by
  refine ⟨fun c ms cs hms hcs => ?_, fun c values cs hvalues hcs => ?_,
    fun ms k cs hms hk hbefore hcs => ?_, fun k v hv hnot => ?_, fun ms k cs after hms hk hcs => ?_⟩
  · rw [lexBytes_encode, hcs.lexText_eq, hms.readCalculation_object]
  · rw [lexBytes_encode, hcs.lexText_eq, readCalculation_array hvalues]
  · rw [lexBytes_encode, hcs.lexText_eq, hms.readCalculation_lacking hk hbefore]
  · obtain ⟨f, hf⟩ := k.exists_isReadBy
    obtain ⟨e, he⟩ := hf.refuses hv hnot
    refine ⟨f, e, hf.found, he, fun ms cs after hms hk hcs => ?_⟩
    rw [lexBytes_encode, hcs.lex_append, hms.readCalculation_refused hk hf he]
  · rw [lexBytes_encode, hcs.lex_append, hms.readCalculation_again hk]

open Member in
/-- The result comes first and the id last, with a member in between that is no field; the type is
an object, and the date has an offset. Without the id, it is the id that is lacking. -/
theorem readCalculation_shuffled_members :
    let ms : List Member :=
      [⟨"result".toList, [.number ⟨false, ['3'], [], none⟩]⟩,
        ⟨"note".toList, [.openArray, .null, .comma, .openObject, .closeObject, .closeArray]⟩,
        ⟨"type".toList, [.openObject, .ofString "Addition", .colon, .null, .closeObject]⟩,
        ⟨"createDate".toList, [.ofString "2024-01-15T12:30:00+02:00"]⟩,
        ⟨"expression".toList, [.ofString "1+2"]⟩]
    let id : Member := ⟨"id".toList, [.number ⟨false, ['7'], [], none⟩]⟩
    (∃ c : Calculation, AreOf (ms ++ [id]) c ∧
      readCalculation (lexBytes (Utf8.encode (write (object (ms ++ [id]))))) = .ok c) ∧
      readCalculation (lexBytes (Utf8.encode (write (object ms))))
        = .error (.mismatch [] (.missingField "id")) := by
  intro ms id
  have hdate : (Rfc3339.readChars? "2024-01-15T12:30:00+02:00".toList).isSome = true := by
    decide +kernel
  obtain ⟨t, ht⟩ := Option.isSome_iff_exists.1 hdate
  have hseven : (⟨false, ['7'], [], none⟩ : Number).IsSpelled :=
    ⟨⟨by simp, by simp⟩, .inr (by decide), by simp, by simp⟩
  have hthree : (⟨false, ['3'], [], none⟩ : Number).IsSpelled :=
    ⟨⟨by simp, by simp⟩, .inr (by decide), by simp, by simp⟩
  obtain ⟨x, hresult⟩ : ∃ x, DenotesDouble x [.number ⟨false, ['3'], [], none⟩] :=
    ⟨_, .number rfl (by decide +kernel)⟩
  let c : Calculation := ⟨⟨7, by decide, by decide⟩, .addition, "1+2", t, x⟩
  have hnote := IsPart.array (IsPart.element (IsPart.scalar (t := .null) rfl)
    (IsPart.lastElement .emptyObject))
  have htype := IsPart.object (@IsPart.lastMember (some "Addition".toList) _
    (IsPart.scalar (t := .null) rfl))
  have hid : DenotesId ⟨7, by decide, by decide⟩ [.number ⟨false, ['7'], [], none⟩] :=
    .digits ⟨rfl, rfl⟩ (by decide) (by decide)
  have hother : ∀ k : CalculationField, "note".toList ≠ k.name.toList := by
    intro k
    cases k <;> decide
  have honce : (ms ++ [id]).Pairwise fun p q => q.name ≠ p.name := by decide
  have hof : AreOf (ms ++ [id]) c := by
    refine ⟨fun p hp => ?_, fun p hp k hk => ?_, honce.imp fun h _ _ => h, fun k => ?_⟩
    · simp only [ms, id, List.cons_append, List.nil_append, List.mem_cons, List.not_mem_nil,
        or_false] at hp
      rcases hp with rfl | rfl | rfl | rfl | rfl | rfl
      · exact .scalar rfl
      · exact hnote
      · exact htype
      · exact .scalar rfl
      · exact .scalar rfl
      · exact .scalar rfl
    · simp only [ms, id, List.cons_append, List.nil_append, List.mem_cons, List.not_mem_nil,
        or_false] at hp
      rcases hp with rfl | rfl | rfl | rfl | rfl | rfl
      · obtain rfl := CalculationField.name_toList_inj (j := .result) hk
        exact hresult
      · exact absurd hk (hother k)
      · obtain rfl := CalculationField.name_toList_inj (j := .type) hk
        exact .object
      · obtain rfl := CalculationField.name_toList_inj (j := .createDate) hk
        exact .date (Rfc3339.readChars?_eq_some_iff.1 ht)
      · obtain rfl := CalculationField.name_toList_inj (j := .expression) hk
        exact .string
      · obtain rfl := CalculationField.name_toList_inj (j := .id) hk
        exact hid
    · cases k <;> simp [Have, ms, id, CalculationField.name]
  have hsound : AreSound ms :=
    ⟨fun p hp => hof.values p (List.mem_append_left _ hp),
      fun p hp k hk => ⟨c, hof.denotes p (List.mem_append_left _ hp) k hk⟩,
      (List.pairwise_append.1 hof.once).1⟩
  have hlacks : ¬ Have ms .id := by
    rintro ⟨p, hp, hname⟩
    exact (List.pairwise_append.1 hof.once).2.2 p hp id (by simp) .id hname hname.symm
  have hwritten : IsWritten (object (ms ++ [id])) := by
    simp [object, separated, tokens, ms, id, IsWritten, Token.IsSpelled, Token.isNumber,
      Token.ofString, hseven, hthree]
  have hwritten' : IsWritten (object ms) := by
    simp [object, separated, tokens, ms, IsWritten, Token.IsSpelled, Token.isNumber,
      Token.ofString, hthree]
  obtain ⟨hread, -, hlacking, -⟩ := readCalculation_members
  refine ⟨⟨c, hof, hread c _ _ hof (spells_write hwritten)⟩, ?_⟩
  exact hlacking ms .id _ hsound hlacks (by rintro j ⟨⟩) (spells_write hwritten')

end CalcJournal.Json
