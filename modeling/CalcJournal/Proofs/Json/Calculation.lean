/-
CalcJournal.Proofs.Json.Calculation — a calculation is read back from its JSON text.

Four encodings have to be undone: the digits of the id, the label of the category, the text
of the instant and the number or word of the result; the expression is only escaped. Each
has its own lemma about the token that it is written as, and the fields chain in the order
in which they are written (`readMembers_comma`, `readMembers_close`). So the tokens of a
calculation are read as that calculation, dated to the instant that is shown
(`readCalculation_tokens`), and its text, which is read as those tokens, determines it to that
extent. No text at all shows a leap second within a minute (`isRegular_of_readCalculation`): what
every field keeps when it is set holds of the record in the end.
-/
import CalcJournal.Json.Calculation
import CalcJournal.Json.Sequence
import CalcJournal.Proofs.Calendar.Rfc3339
import CalcJournal.Proofs.Json.Lexing
import CalcJournal.Proofs.Text.Utf8

namespace CalcJournal.Json

/-! ## 1. Members -/

namespace Shape

variable {σ α : Type} {shape : Shape σ α} {s : σ} {name : List Char} {f : Field σ}
  {ts rest : List Token} {set : σ → σ}

/-- A member in front of another one sets its field. -/
theorem readMembers_comma (hfield : shape.field? name = some f) (hset : f.isSet s = false)
    (hread : f.reader.run ts = .ok (set, .comma :: rest)) :
    shape.readMembers s (.string (some name) :: .colon :: ts)
      = shape.readMembers (set s) rest := by
  rw [readMembers]
  simp only [hfield, hset, Bool.false_eq_true, if_false]
  split
  case h_1 e herror => rw [hread] at herror; simp at herror
  case h_2 set' rest' hok =>
    rw [hread] at hok
    obtain ⟨rfl, hrest⟩ := Prod.mk.inj (Except.ok.inj hok)
    obtain ⟨-, rfl⟩ := List.cons.inj hrest
    rfl
  case h_3 set' rest' hok => rw [hread] at hok; simp at hok
  case h_4 p hcomma _ hok =>
    rw [hread] at hok
    exact absurd (Except.ok.inj hok).symm (hcomma set rest)

/-- The last member sets its field. -/
theorem readMembers_close (hfield : shape.field? name = some f) (hset : f.isSet s = false)
    (hread : f.reader.run ts = .ok (set, .closeObject :: rest)) :
    shape.readMembers s (.string (some name) :: .colon :: ts) = .ok (set s, rest) := by
  rw [readMembers]
  simp only [hfield, hset, Bool.false_eq_true, if_false]
  split
  case h_1 e herror => rw [hread] at herror; simp at herror
  case h_2 set' rest' hok => rw [hread] at hok; simp at hok
  case h_3 set' rest' hok =>
    rw [hread] at hok
    obtain ⟨rfl, hrest⟩ := Prod.mk.inj (Except.ok.inj hok)
    obtain ⟨-, rfl⟩ := List.cons.inj hrest
    rfl
  case h_4 p _ hclose hok =>
    rw [hread] at hok
    exact absurd (Except.ok.inj hok).symm (hclose set rest)

end Shape

/-- A value that its reader reads is set by its field. -/
theorem Field.run_of {σ β : Type} {name : String} {get : σ → Option β} {set : β → σ → σ}
    {r : Reader β} {b : β} {ts rest : List Token} (h : r.run ts = .ok (b, rest)) :
    (Field.of name get set r).reader.run ts = .ok (set b, rest) := by
  show (r.run ts).map _ = _
  rw [h]
  rfl

/-- A value that its reader refuses is refused by its field. -/
theorem Field.run_of_error {σ β : Type} {name : String} {get : σ → Option β} {set : β → σ → σ}
    {r : Reader β} {e : Fault} {ts : List Token} (h : r.run ts = .error e) :
    (Field.of name get set r).reader.run ts = .error e := by
  show (r.run ts).map _ = _
  rw [h]
  rfl

/-! ## 2. Values -/

section Values

variable (rest : List Token)

theorem run_readId (id : CalculationId) :
    readId.run (.number (.ofInt id.val) :: rest) = .ok (id, rest) := by
  have hnumeral := Number.numeral?_ofInt id.low id.high
  simp only [readId, Reader.ofToken, hnumeral, CalculationId.ofInt?_val]
  rfl

theorem run_readText {β : Type} {expected : String} {f : List Char → Except Mismatch β}
    {s : String} {b : β} (h : f s.toList = .ok b) :
    (readText expected f).run (.ofString s :: rest) = .ok (b, rest) := by
  simp only [readText, Reader.ofToken, Token.ofString, h]
  rfl

theorem run_readCategory (c : Category) :
    readCategory.run (.ofString c.label :: rest) = .ok (c, rest) := by
  have hlabel : category c.label.toList = .ok c := by
    rw [category, String.ofList_toList, Category.ofLabel?_label]
  simp only [readCategory, Token.ofString, readCategoryTokens, hlabel]

theorem run_readString (s : String) : readString.run (.ofString s :: rest) = .ok (s, rest) :=
  run_readText rest (by rw [String.ofList_toList])

/-- The instant is written with the fewest digits that lose nothing, and read as it is written. -/
theorem run_readInstant (t : Instant) :
    readInstant.run (.ofString (t.text .fewest) :: rest) = .ok (t.asWritten, rest) := by
  have hread : Rfc3339.readChars? (t.text .fewest).toList = some t.asWritten :=
    Instant.ofText?_text .fewest t
  exact run_readText rest (by rw [hread])

/-- The three words name the doubles for which they stand, and no number is one of them. -/
theorem run_readDouble (x : Binary64) :
    readDouble.run (.ofBinary64 x :: rest) = .ok (x, rest) := by
  cases x with
  | nan => rfl
  | infinite negative => cases negative <;> rfl
  | finite negative rank =>
    have hnearest := Number.nearest_ofFinite negative rank
    simp only [readDouble, Token.ofBinary64, readDoubleTokens, hnearest]
    rfl

end Values

/-! ## 3. Calculations -/

/-- The tokens of a calculation are told apart when they are written. -/
theorem isWritten_calculationTokens (c : Calculation) : IsWritten (calculationTokens c) := by
  have hid := Number.isSpelled_ofInt c.id.val
  have hresult : (Token.ofBinary64 c.result).IsSpelled := by
    cases c.result with
    | nan => rfl
    | infinite negative => cases negative <;> rfl
    | finite negative rank => exact Number.isSpelled_ofFinite negative rank
  have htext : ∀ s : String, (Token.ofString s).IsSpelled := fun _ => rfl
  have hnext : ∀ s : String, (Token.ofString s).isNumber = false := fun _ => rfl
  simp only [calculationTokens, fieldTokens, List.cons_append, List.nil_append, IsWritten,
    List.head?_cons, Option.mem_some_iff, forall_eq', htext, hresult]
  simp [Token.IsSpelled, Token.isNumber, hid, Token.ofString]

/-- The fields are set one after the other, in the order of the shape, whatever follows. -/
theorem readFields_calculationTokens (c : Calculation) (rest : List Token) :
    calculationShape.readFields (calculationTokens c ++ rest)
      = .ok (⟨some c.id, some c.category, some c.expression, some c.created.asWritten,
          some c.result⟩, rest) := by
  simp only [calculationTokens, fieldTokens, List.cons_append, List.nil_append]
  refine (Shape.readMembers_comma rfl rfl (Field.run_of (run_readId _ c.id))).trans ?_
  refine (Shape.readMembers_comma rfl rfl (Field.run_of (run_readCategory _ c.category))).trans ?_
  refine (Shape.readMembers_comma rfl rfl (Field.run_of (run_readString _ c.expression))).trans ?_
  refine (Shape.readMembers_comma rfl rfl (Field.run_of (run_readInstant _ c.created))).trans ?_
  exact (Shape.readMembers_close rfl rfl (Field.run_of (run_readDouble _ c.result))).trans rfl

/-- **The tokens of a calculation are read as that calculation**, as it is written. -/
theorem readCalculation_tokens (c : Calculation) :
    readCalculation (calculationTokens c) = .ok c.asWritten := by
  have hfields := readFields_calculationTokens c []
  rw [List.append_nil] at hfields
  rw [readCalculation, Shape.read, hfields]
  rfl

/-! ## 4. What is read of any text -/

namespace Shape

variable {σ α : Type} {shape : Shape σ α} {P : σ → Prop} {s s' : σ} {ts rest : List Token}

/-- A property of records in the making that is kept whatever a field is set to. -/
def Keeps (shape : Shape σ α) (P : σ → Prop) : Prop :=
  ∀ f ∈ shape.fields, ∀ ts set rest, f.reader.run ts = .ok (set, rest) → ∀ s, P s → P (set s)

theorem Keeps.readMembers (h : shape.Keeps P) (hs : P s)
    (hread : shape.readMembers s ts = .ok (s', rest)) : P s' := by
  fun_induction Shape.readMembers shape s ts generalizing s' rest with
  | case1 s name _ ts after hskip ih => exact ih hs hread
  | case2 =>
    obtain ⟨rfl, -⟩ := Prod.mk.inj (Except.ok.inj hread)
    exact hs
  | case7 s name f hfield _ ts set after hrun ih =>
    exact ih (h f (List.mem_of_find?_eq_some hfield) _ _ _ hrun s hs) hread
  | case8 s name f hfield _ ts set after hrun =>
    obtain ⟨rfl, -⟩ := Prod.mk.inj (Except.ok.inj hread)
    exact h f (List.mem_of_find?_eq_some hfield) _ _ _ hrun s hs
  | case3 | case4 | case5 | case6 | case9 | case10 | case11 => simp at hread

theorem Keeps.readElements (h : shape.Keeps P) {fields : List (Field σ)} {index : Nat}
    (hfields : ∀ f ∈ fields, f ∈ shape.fields) (hs : P s)
    (hread : shape.readElements index s fields ts = .ok (s', rest)) : P s' := by
  fun_induction Shape.readElements shape index s fields ts with
  | case1 =>
    obtain ⟨rfl, -⟩ := Prod.mk.inj (Except.ok.inj hread)
    exact hs
  | case6 index s f fields _ _ ts _ set after hrun ih =>
    have hset := h f (hfields f List.mem_cons_self) _ _ _ hrun s hs
    exact ih (fun g hg => hfields g (List.mem_cons_of_mem f hg)) hset hread
  | case2 | case3 | case4 | case5 => simp at hread

/-- What every field keeps holds of the fields that are read. -/
theorem Keeps.readFields (h : shape.Keeps P) (hempty : P shape.empty)
    (hread : shape.readFields ts = .ok (s, rest)) : P s := by
  unfold Shape.readFields at hread
  split at hread
  case h_1 =>
    obtain ⟨rfl, -⟩ := Prod.mk.inj (Except.ok.inj hread)
    exact hempty
  case h_2 => exact h.readMembers hempty hread
  case h_3 => exact h.readElements (fun _ hf => hf) hempty hread
  case h_4 => simp at hread

end Shape

/-- A field is set to a value that its reader has read. -/
theorem Field.exists_of_run {σ β : Type} {name : String} {get : σ → Option β} {set : β → σ → σ}
    {r : Reader β} {update : σ → σ} {ts rest : List Token}
    (h : (Field.of name get set r).reader.run ts = .ok (update, rest)) :
    ∃ b, r.run ts = .ok (b, rest) ∧ update = set b := by
  cases hread : r.run ts with
  | error e =>
    rw [Field.run_of_error hread] at h
    cases h
  | ok p =>
    obtain ⟨b, after⟩ := p
    rw [Field.run_of hread] at h
    cases h
    exact ⟨b, rfl, rfl⟩

/-- An instant that is read is regular. -/
theorem isRegular_of_run_readInstant {ts rest : List Token} {t : Instant}
    (h : readInstant.run ts = .ok (t, rest)) : t.IsRegular := by
  rcases ts with _ | ⟨token, ts⟩
  · cases h
  cases token with
  | string text? =>
    cases text? with
    | none => cases h
    | some cs =>
      simp only [readInstant, readText, Reader.ofToken] at h
      cases hread : Rfc3339.readChars? cs with
      | none =>
        rw [hread] at h
        cases h
      | some u =>
        rw [hread] at h
        cases h
        exact Rfc3339.isRegular_of_readChars? hread
  | _ => cases h

/-- The date of a record in the making, if it is there, is regular. -/
theorem keeps_isRegular :
    calculationShape.Keeps fun f => ∀ t, f.created = some t → t.IsRegular := by
  intro f hf ts set rest hrun s hs
  simp only [calculationShape, List.mem_cons, List.not_mem_nil, or_false] at hf
  rcases hf with rfl | rfl | rfl | rfl | rfl
  case inr.inr.inr.inl =>
    obtain ⟨t, hread, rfl⟩ := Field.exists_of_run hrun
    rintro _ ⟨⟩
    exact isRegular_of_run_readInstant hread
  all_goals
    obtain ⟨-, -, rfl⟩ := Field.exists_of_run hrun
    exact hs

/-- The date of a calculation is that of the fields that it is made of. -/
theorem created_of_finish {f : CalculationFields} {c : Calculation} (h : f.finish = .ok c) :
    f.created = some c.created := by
  obtain ⟨_ | id, _ | category, _ | expression, _ | created, _ | result⟩ := f
  all_goals cases h
  rfl

/-- **The date of a calculation that is read is regular**, whatever the text. -/
theorem isRegular_of_readCalculation {ts : List Token} {c : Calculation}
    (h : readCalculation ts = .ok c) : c.created.IsRegular := by
  unfold readCalculation Shape.read at h
  split at h
  case h_1 => simp at h
  case h_2 fields rest hfields =>
    have hregular := keeps_isRegular.readFields (by simp [calculationShape]) hfields
    split at h
    case h_1 => simp at h
    case h_2 d hfinish =>
      split at h
      case isTrue =>
        obtain rfl := Except.ok.inj h
        exact hregular _ (created_of_finish hfinish)
      case isFalse => simp at h

/-! ## 5. Texts -/

theorem lexText_calculation (c : Calculation) :
    lexText (write (calculationTokens c)) = calculationTokens c :=
  lexText_write (isWritten_calculationTokens c)

theorem lexBytes_encode (cs : List Char) : lexBytes (Utf8.encode cs) = lexText cs := by
  rw [lexBytes, Utf8.pieces_encode, lexText]

/-- The bytes of a document are read back as its tokens. -/
theorem lexBytes_write {ts : List Token} (h : IsWritten ts) :
    lexBytes (Utf8.encode (write ts)) = ts := by
  rw [lexBytes_encode, lexText_write h]

theorem lexBytes_calculation (c : Calculation) :
    lexBytes (Utf8.encode (write (calculationTokens c))) = calculationTokens c :=
  lexBytes_write (isWritten_calculationTokens c)

theorem calculationTokens_asWritten (c : Calculation) :
    calculationTokens c.asWritten = calculationTokens c := by
  simp only [calculationTokens, Calculation.asWritten, Instant.text_asWritten]

/-- Calculations have the same text exactly when they are the same as they are written. -/
theorem write_calculationTokens_eq_iff {c d : Calculation} :
    write (calculationTokens c) = write (calculationTokens d) ↔ c.asWritten = d.asWritten := by
  constructor
  · intro h
    have htokens : calculationTokens c = calculationTokens d := by
      rw [← lexText_calculation c, h, lexText_calculation d]
    have hread := readCalculation_tokens c
    rw [htokens, readCalculation_tokens d] at hread
    exact (Except.ok.inj hread).symm
  · intro h
    rw [← calculationTokens_asWritten c, h, calculationTokens_asWritten d]

/-- **A calculation is read back from its JSON as it is written there**, whether the JSON comes
as a text or as the bytes of one. It is read back whole exactly when its date does not lie in a
leap second within a minute, and two calculations have the same JSON exactly when they are the
same as they are written; so if neither lies in such a leap second, exactly when they are the
same. -/
theorem readCalculation_written (c d : Calculation) :
    readCalculation (lexText (write (calculationTokens c))) = .ok c.asWritten ∧
      readCalculation (lexBytes (Utf8.encode (write (calculationTokens c)))) = .ok c.asWritten ∧
      (c.asWritten = c ↔ c.created.IsRegular) ∧
      (write (calculationTokens c) = write (calculationTokens d) ↔ c.asWritten = d.asWritten) ∧
      (c.created.IsRegular → d.created.IsRegular →
        (write (calculationTokens c) = write (calculationTokens d) ↔ c = d)) := by
  refine ⟨?_, ?_, Calculation.asWritten_eq_self_iff, write_calculationTokens_eq_iff, ?_⟩
  · rw [lexText_calculation, readCalculation_tokens]
  · rw [lexBytes_calculation, readCalculation_tokens]
  · intro hc hd
    rw [write_calculationTokens_eq_iff, Calculation.asWritten_eq_self_iff.2 hc,
      Calculation.asWritten_eq_self_iff.2 hd]

/-- The negation of zero, dated to an instant. -/
def negatedZero (created : Instant) : Calculation :=
  ⟨⟨-1, by decide, by decide⟩, .subtract, "-0", created, .zero true⟩

/-- The instant of a leap second that ended a year is read back, with the sign of a zero. -/
theorem readCalculation_written_leap_second :
    let c := negatedZero ⟨⟨1998, 12, 31, by decide⟩,
      ⟨23, 59, 59, 1000000001, by decide, by decide, by decide, by decide⟩⟩
    c.created.text .fewest = "1998-12-31T23:59:60.000000001Z" ∧ c.created.IsRegular ∧
      readCalculation (lexText (write (calculationTokens c))) = .ok c := by
  intro c
  have hregular : c.created.IsRegular := by decide
  obtain ⟨hread, -, hwhole, -⟩ := readCalculation_written c c
  exact ⟨by decide +kernel, hregular, hwhole.2 hregular ▸ hread⟩

/-- A calculation that is dated to a leap second within a minute is read back as another one,
and the two have the same JSON. -/
theorem readCalculation_leapWithinMinute :
    let c := negatedZero leapWithinMinute
    ∃ read, readCalculation (lexText (write (calculationTokens c))) = .ok read ∧ read ≠ c ∧
      write (calculationTokens read) = write (calculationTokens c) := by
  intro c
  refine ⟨c.asWritten, ?_, by decide, by rw [calculationTokens_asWritten]⟩
  rw [lexText_calculation, readCalculation_tokens]

end CalcJournal.Json
