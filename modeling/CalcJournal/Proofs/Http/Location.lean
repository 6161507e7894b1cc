/-
CalcJournal.Proofs.Http.Location — the place of a calculation is the path to its id.

The text of an id has digits and a minus at most. So no character of it ends a path or a
segment, none is written with a percent sign, and it is the name of no other resource: the
target that is told when a calculation has been filed takes the route of that calculation,
and its last segment stands for the id.
-/
import CalcJournal.Http.Router
import CalcJournal.Proofs.Text.Digits
import CalcJournal.Proofs.Text.Utf8

namespace CalcJournal

/-! ## 1. The texts of ids -/

namespace Text

/-- A written integer is read back. -/
theorem readInt?_decimalInt (n : Int) : readInt? (decimalInt n) = some n := by
  unfold decimalInt
  split
  case isTrue hneg =>
    rw [readInt?, readNat?_decimal]
    show some (-(n.natAbs : Int)) = some n
    congr 1
    omega
  case isFalse hpos =>
    have hrun := isRun_decimal n.natAbs
    have hread := readNat?_decimal n.natAbs
    unfold readInt?
    split
    case h_1 heq => exact absurd (hrun.2 '-' (by simp [heq])) (by decide)
    case h_2 heq => exact absurd (hrun.2 '+' (by simp [heq])) (by decide)
    case h_3 =>
      rw [hread, Option.map_some]
      congr 1
      show (n.natAbs : Int) = n
      omega

theorem mem_decimalInt {n : Int} {c : Char} (h : c ∈ decimalInt n) :
    c = '-' ∨ c.isDigit = true := by
  unfold decimalInt at h
  split at h
  · rcases List.mem_cons.1 h with rfl | h
    · exact .inl rfl
    · exact .inr (isDigit_of_mem_decimal h)
  · exact .inr (isDigit_of_mem_decimal h)

end Text

namespace CalculationId

/-- The text of an id is read back. -/
theorem ofText?_text (id : CalculationId) : ofText? id.text.toList = some id := by
  rw [ofText?, text, String.toList_ofList, Text.readInt?_decimalInt, Option.bind_some, ofInt?_val]

/-- No character of the text of an id is one that is neither a minus nor a digit. -/
theorem ne_of_mem_text {id : CalculationId} {c d : Char} (h : c ∈ id.text.toList)
    (hminus : d ≠ '-') (hdigit : d.isDigit = false) : c ≠ d := by
  rintro rfl
  rw [text, String.toList_ofList] at h
  rcases Text.mem_decimalInt h with hc | hc
  · exact hminus hc
  · rw [hdigit] at hc
    exact Bool.false_ne_true hc

theorem text_ne_nil (id : CalculationId) : id.text.toList ≠ [] := by
  intro h
  have hread := ofText?_text id
  rw [h] at hread
  simp [ofText?, Text.readInt?, Text.readNat?] at hread

end CalculationId

/-! ## 2. Parameters -/

/-- Bytes without a percent sign stand for themselves. -/
theorem Percent.decode_of_plain {bytes : List UInt8} (h : ∀ b ∈ bytes, b ≠ 0x25) :
    decode bytes = bytes := by
  fun_induction decode bytes with
  | case1 => rfl
  | case2 => exact absurd rfl (h 0x25 (by simp))
  | case3 => exact absurd rfl (h 0x25 (by simp))
  | case4 c rest _ ih => rw [ih fun b hb => h b (List.mem_cons_of_mem c hb)]

/-- Only the percent sign itself has its byte. -/
theorem Utf8.ne_percent_of_mem {c : Char} (h : c ≠ '%') {b : UInt8}
    (hb : b ∈ String.utf8EncodeChar c) : b ≠ 0x25 := by
  have hval : c.val.toNat = c.toNat := rfl
  have hne : c.toNat ≠ 0x25 := fun hc => h (Char.toNat_inj.1 hc)
  have hbyte : ∀ n, (0x25 : UInt8) = UInt8.ofNat n → n % 256 = 0x25 := by
    intro n hn
    have hn := congrArg UInt8.toNat hn
    rw [UInt8.toNat_ofNat'] at hn
    exact hn.symm
  rintro rfl
  unfold String.utf8EncodeChar at hb
  simp only [hval] at hb
  -- a byte of a longer form has its highest bit set
  split at hb
  case isTrue =>
    have := hbyte _ (List.mem_singleton.1 hb)
    omega
  split at hb
  case isTrue =>
    simp only [List.mem_cons, List.not_mem_nil, or_false] at hb
    rcases hb with hb | hb <;> · have := hbyte _ hb; omega
  split at hb
  case isTrue =>
    simp only [List.mem_cons, List.not_mem_nil, or_false] at hb
    rcases hb with hb | hb | hb <;> · have := hbyte _ hb; omega
  case isFalse =>
    simp only [List.mem_cons, List.not_mem_nil, or_false] at hb
    rcases hb with hb | hb | hb | hb <;> · have := hbyte _ hb; omega

namespace Http

/-- A segment without percent signs stands for itself. -/
theorem parameter?_of_plain {segment : List Char} (h : ∀ c ∈ segment, c ≠ '%') :
    parameter? segment = some segment := by
  have hbytes : ∀ b ∈ Utf8.encode segment, b ≠ 0x25 := by
    intro b hb
    obtain ⟨c, hc, hb⟩ := List.mem_flatMap.1 hb
    exact Utf8.ne_percent_of_mem (h c hc) hb
  rw [parameter?, Percent.decode_of_plain hbytes, Utf8.decode?_encode]

/-- The segment of an id stands for the id. -/
theorem readId_text (id : CalculationId) : readId id.text.toList = .ok id := by
  have hplain : ∀ c ∈ id.text.toList, c ≠ '%' := fun c hc =>
    CalculationId.ne_of_mem_text hc (by decide) (by decide)
  simp only [readId, parameter?_of_plain hplain, CalculationId.ofText?_text]

/-! ## 3. Paths -/

namespace Target

/-- A text without slashes is one segment. -/
theorem segments_of_plain {cs : List Char} (h : ∀ c ∈ cs, c ≠ '/') : segments cs = [cs] := by
  induction cs with
  | nil => rfl
  | cons c cs ih =>
    have hc := h c (by simp)
    rw [segments, if_neg hc, ih fun d hd => h d (List.mem_cons_of_mem c hd)]

/-- The segments end at the first slash. -/
theorem segments_append_slash {cs : List Char} (h : ∀ c ∈ cs, c ≠ '/') (rest : List Char) :
    segments (cs ++ '/' :: rest) = cs :: segments rest := by
  induction cs with
  | nil => rfl
  | cons c cs ih =>
    have hc := h c (by simp)
    rw [List.cons_append, segments, if_neg hc, ih fun d hd => h d (List.mem_cons_of_mem c hd)]

/-- A path from the root on, with nothing behind it, is the whole target. -/
theorem path_of_plain {cs : List Char} (h : ∀ c ∈ cs, c ≠ '?' ∧ c ≠ '#') :
    path ('/' :: cs) = '/' :: cs := by
  show ('/' :: cs).takeWhile _ = '/' :: cs
  rw [← List.append_nil ('/' :: cs)]
  refine List.takeWhile_append_of_pos ?_
  intro c hc
  rcases List.mem_cons.1 hc with rfl | hc
  · rfl
  · simpa using h c hc

end Target

/-- The name of the calculations holds no mark that ends a segment or a path. -/
theorem ne_of_mem_calculations {c : Char} (h : c ∈ "calculations".toList) :
    c ≠ '/' ∧ c ≠ '?' ∧ c ≠ '#' := by
  have hall : "calculations".toList.all (fun c => c != '/' && (c != '?' && c != '#')) = true := by
    decide
  have hc := List.all_eq_true.1 hall c h
  simpa only [Bool.and_eq_true, bne_iff_ne] using hc

/-- **The place that is told for an id takes the route to that id.** -/
theorem ofPath?_location (id : CalculationId) :
    Route.ofPath? (Target.path ("/calculations/" ++ id.text).toList)
      = some (.calculation id.text.toList) := by
  have hpath : Target.path ("/calculations/" ++ id.text).toList
      = '/' :: ("calculations".toList ++ '/' :: id.text.toList) := by
    rw [String.toList_append]
    refine @Target.path_of_plain ("calculations".toList ++ '/' :: id.text.toList) ?_
    intro c hc
    rcases List.mem_append.1 hc with hc | hc
    · exact (ne_of_mem_calculations hc).2
    · rcases List.mem_cons.1 hc with rfl | hc
      · decide
      · exact ⟨CalculationId.ne_of_mem_text hc (by decide) (by decide),
          CalculationId.ne_of_mem_text hc (by decide) (by decide)⟩
  have hsegments : Target.segments ('/' :: ("calculations".toList ++ '/' :: id.text.toList))
      = [[], "calculations".toList, id.text.toList] := by
    rw [Target.segments, if_pos rfl,
      Target.segments_append_slash fun c hc => (ne_of_mem_calculations hc).1,
      Target.segments_of_plain fun c hc =>
        CalculationId.ne_of_mem_text hc (by decide) (by decide)]
  have hhistory : id.text.toList ≠ "history".toList := by
    intro h
    have hmem : 'h' ∈ id.text.toList := by rw [h]; decide
    exact CalculationId.ne_of_mem_text hmem (by decide) (by decide) rfl
  rw [hpath, Route.ofPath?, hsegments]
  simp only [ne_eq, not_true_eq_false, CalculationId.text_ne_nil, or_self, if_false, hhistory]

end Http

end CalcJournal
