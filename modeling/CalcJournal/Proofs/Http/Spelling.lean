/-
CalcJournal.Proofs.Http.Spelling — segments that spell a text, whatever it holds.

A segment spells bytes when it holds each of them as an escape, in either case of letter, or
has in the place of some of them the character whose UTF-8 form they are, as long as that
character may stand in a path and ends neither the segment nor the path (`Target.Spells`).
Escapes alone spell every sequence of bytes (`spells_escaped`).

A segment is cut out of its path before any escape is read. So a segment that spells a text
stands for that text, even when there are slashes, percent signs or controls in it.
-/
import CalcJournal.Proofs.Http.Location
import Mathlib.Data.List.TakeWhile

namespace CalcJournal

/-! ## 1. Bytes -/

/-- Bytes that hold no percent sign are read on their own. -/
theorem Percent.decode_append_of_plain {front : List UInt8} (h : ∀ b ∈ front, b ≠ 0x25)
    (rest : List UInt8) : decode (front ++ rest) = front ++ decode rest := by
  induction front with
  | nil => rfl
  | cons b front ih =>
    have hb := h b (by simp)
    rw [List.cons_append, List.cons_append, ← ih fun c hc => h c (List.mem_cons_of_mem b hc)]
    rw [decode]
    rintro _ _ _ rfl
    exact absurd rfl hb

namespace Http.Target

/-! ## 2. Spelling -/

/-- A hexadecimal digit, in either case of letter, and its value. -/
def IsHexDigit (c : Char) (n : Nat) : Prop :=
  n < 16 ∧ (c = n.digitChar ∨ c = n.digitChar.toUpper)

instance (c : Char) (n : Nat) : Decidable (IsHexDigit c n) := inferInstanceAs (Decidable (_ ∧ _))

/-- A character that stands for itself in a segment. -/
def IsPlain (c : Char) : Prop := isPathChar c = true ∧ c ∉ ['%', '/', '?', '#']

instance (c : Char) : Decidable (IsPlain c) := inferInstanceAs (Decidable (_ ∧ _))

theorem IsPlain.ne {c mark : Char} (h : IsPlain c) (hmark : mark ∈ ['%', '/', '?', '#']) :
    c ≠ mark := by
  rintro rfl
  exact h.2 hmark

/-- A segment spells bytes. -/
inductive Spells : List Char → List UInt8 → Prop
  | nil : Spells [] []
  | escape {high low : Char} {b : UInt8} {cs : List Char} {bytes : List UInt8}
      (hhigh : IsHexDigit high (b.toNat / 16)) (hlow : IsHexDigit low (b.toNat % 16))
      (hrest : Spells cs bytes) : Spells ('%' :: high :: low :: cs) (b :: bytes)
  | plain {c : Char} {cs : List Char} {bytes : List UInt8} (hc : IsPlain c)
      (hrest : Spells cs bytes) : Spells (c :: cs) (String.utf8EncodeChar c ++ bytes)

/-- A hexadecimal digit is one byte, which has the value of the digit. -/
theorem IsHexDigit.exists_byte {c : Char} {n : Nat} (h : IsHexDigit c n) :
    ∃ b, String.utf8EncodeChar c = [b] ∧ Percent.hexValue? b = some n := by
  have hdigits : ∀ n, n < 16 →
      (String.utf8EncodeChar n.digitChar).map Percent.hexValue? = [some n] ∧
      (String.utf8EncodeChar n.digitChar.toUpper).map Percent.hexValue? = [some n] := by
    decide
  obtain ⟨hn, hc⟩ := h
  have hvalue : (String.utf8EncodeChar c).map Percent.hexValue? = [some n] := by
    rcases hc with rfl | rfl
    · exact (hdigits n hn).1
    · exact (hdigits n hn).2
  obtain ⟨b, hb, hn⟩ := List.map_eq_singleton_iff.1 hvalue
  exact ⟨b, hb, hn⟩

/-- **A segment is read as the bytes that it spells.** -/
theorem Spells.decode {cs : List Char} {bytes : List UInt8} (h : Spells cs bytes) :
    Percent.decode (Utf8.encode cs) = bytes := by
  induction h with
  | nil => rfl
  | @escape high low b cs bytes hhigh hlow _ ih =>
    obtain ⟨x, hx, hxvalue⟩ := hhigh.exists_byte
    obtain ⟨y, hy, hyvalue⟩ := hlow.exists_byte
    have hencode : Utf8.encode ('%' :: high :: low :: cs) = 0x25 :: x :: y :: Utf8.encode cs := by
      simp only [Utf8.encode, List.flatMap_cons, hx, hy]
      rfl
    have hsum : b.toNat / 16 * 16 + b.toNat % 16 = b.toNat := by omega
    rw [hencode, Percent.decode, hxvalue, hyvalue]
    simp only [hsum, UInt8.ofNat_toNat, ih]
  | @plain c cs bytes hc _ ih =>
    have hbytes : ∀ b ∈ String.utf8EncodeChar c, b ≠ 0x25 := fun b hb =>
      Utf8.ne_percent_of_mem (hc.ne (by simp)) hb
    rw [Utf8.encode, List.flatMap_cons, ← Utf8.encode, Percent.decode_append_of_plain hbytes, ih]

/-- No character of a segment that spells something ends the segment or the path, and each
may stand in a path. -/
theorem Spells.of_mem {cs : List Char} {bytes : List UInt8} (h : Spells cs bytes) {c : Char}
    (hc : c ∈ cs) : isPathChar c = true ∧ c ≠ '/' ∧ c ≠ '?' ∧ c ≠ '#' := by
  have hdigit : ∀ {c n}, IsHexDigit c n → isPathChar c = true ∧ c ≠ '/' ∧ c ≠ '?' ∧ c ≠ '#' := by
    have hall : ∀ n, n < 16 →
        (isPathChar n.digitChar = true ∧ n.digitChar ≠ '/' ∧ n.digitChar ≠ '?' ∧
          n.digitChar ≠ '#') ∧
        (isPathChar n.digitChar.toUpper = true ∧ n.digitChar.toUpper ≠ '/' ∧
          n.digitChar.toUpper ≠ '?' ∧ n.digitChar.toUpper ≠ '#') := by
      decide
    rintro c n ⟨hn, rfl | rfl⟩
    · exact (hall n hn).1
    · exact (hall n hn).2
  induction h with
  | nil => simp at hc
  | escape hhigh hlow _ ih =>
    rcases List.mem_cons.1 hc with rfl | hc
    · decide
    rcases List.mem_cons.1 hc with rfl | hc
    · exact hdigit hhigh
    rcases List.mem_cons.1 hc with rfl | hc
    · exact hdigit hlow
    · exact ih hc
  | plain hplain _ ih =>
    rcases List.mem_cons.1 hc with rfl | hc
    · exact ⟨hplain.1, hplain.ne (by simp), hplain.ne (by simp), hplain.ne (by simp)⟩
    · exact ih hc

/-- Only the empty segment spells nothing. -/
theorem Spells.ne_nil {cs : List Char} {bytes : List UInt8} (h : Spells cs bytes)
    (hbytes : bytes ≠ []) : cs ≠ [] := by
  rintro rfl
  cases h
  exact hbytes rfl

/-- The segment that spells bytes by escapes alone. -/
def escaped (bytes : List UInt8) : List Char :=
  (Percent.encode bytes).map fun b => Char.ofNat b.toNat

theorem spells_escaped (bytes : List UInt8) : Spells (escaped bytes) bytes := by
  have hdigit : ∀ n, n < 16 → IsHexDigit (Char.ofNat (Percent.hexDigit n).toNat) n := by
    decide +kernel
  induction bytes with
  | nil => exact .nil
  | cons b bytes ih =>
    have hb := b.toNat_lt
    exact .escape (hdigit _ (by omega)) (hdigit _ (by omega)) ih

end Http.Target

namespace Http

/-- **A segment that spells a text stands for that text.** -/
theorem parameter?_of_spells {segment text : List Char}
    (h : Target.Spells segment (Utf8.encode text)) : parameter? segment = some text := by
  rw [parameter?, h.decode, Utf8.decode?_encode]

theorem readPredicate_of_spells {segment : List Char} {text : String}
    (h : Target.Spells segment (Utf8.encode text.toList)) : readPredicate segment = .ok text := by
  simp only [readPredicate, parameter?_of_spells h, String.ofList_toList]

/-! ## 3. The target of a search -/

/-- The target that asks for what a segment spells. -/
def searchTarget (segment : List Char) : String := "/calculations/search/" ++ String.ofList segment

section Searches

variable {segment : List Char} {bytes : List UInt8}

theorem toList_searchTarget (segment : List Char) : (searchTarget segment).toList
    = '/' :: ("calculations".toList ++ '/' :: ("search".toList ++ '/' :: segment)) := by
  -- the joints are for any names: rewriting would take literals apart
  have hfront : ∀ front : String,
      (front ++ String.ofList segment).toList = front.toList ++ segment := by
    intro front
    rw [String.toList_append, String.toList_ofList]
  have hjoin : ∀ a b : List Char, ('/' :: (a ++ '/' :: (b ++ ['/']))) ++ segment
      = '/' :: (a ++ '/' :: (b ++ '/' :: segment)) := by
    simp
  have hnames : "/calculations/search/".toList
      = '/' :: ("calculations".toList ++ '/' :: ("search".toList ++ ['/'])) := by decide
  exact (hfront _).trans ((congrArg (· ++ segment) hnames).trans (hjoin _ _))

/-- Each character behind the first may stand in a path and does not end it. -/
theorem mem_searchTarget {c : Char} (h : Target.Spells segment bytes)
    (hc : c ∈ "calculations".toList ++ '/' :: ("search".toList ++ '/' :: segment)) :
    Target.isPathChar c = true ∧ c ≠ '?' ∧ c ≠ '#' := by
  have hnames : ("calculations".toList ++ '/' :: ("search".toList ++ ['/'])).all
      (fun c => Target.isPathChar c && (c != '?' && c != '#')) = true := by decide
  have hfront : c ∈ "calculations".toList ++ '/' :: ("search".toList ++ ['/']) ∨ c ∈ segment := by
    simpa [or_assoc] using hc
  rcases hfront with hc | hc
  · simpa only [Bool.and_eq_true, bne_iff_ne] using List.all_eq_true.1 hnames c hc
  · obtain ⟨hpath, -, hends⟩ := h.of_mem hc
    exact ⟨hpath, hends⟩

/-- **The target of a search takes the route of the search for its segment.** -/
theorem ofPath?_searchTarget (h : Target.Spells segment bytes) (hbytes : bytes ≠ []) :
    Route.ofPath? (Target.path (searchTarget segment).toList) = some (.search segment) := by
  have hpath : Target.path (searchTarget segment).toList = (searchTarget segment).toList := by
    rw [toList_searchTarget]
    exact Target.path_of_plain fun c hc => (mem_searchTarget h hc).2
  have hsearch : "search".toList.all (· != '/') = true := by decide
  have hsegments : Target.segments (searchTarget segment).toList
      = [[], "calculations".toList, "search".toList, segment] := by
    rw [toList_searchTarget, Target.segments, if_pos rfl,
      Target.segments_append_slash fun c hc => (ne_of_mem_calculations hc).1,
      Target.segments_append_slash fun c hc => bne_iff_ne.1 (List.all_eq_true.1 hsearch c hc),
      Target.segments_of_plain fun c hc => (h.of_mem hc).2.1]
  rw [hpath, Route.ofPath?, hsegments]
  exact if_pos ⟨rfl, rfl, h.ne_nil hbytes⟩

/-- It is a target as long as it is not too long. -/
theorem isTarget_searchTarget (h : Target.Spells segment bytes) :
    Target.isTarget (searchTarget segment) = true ↔
      (searchTarget segment).utf8ByteSize ≤ Target.lengthLimit := by
  have hchars : ∀ c ∈ (searchTarget segment).toList,
      Target.isPathChar c = true ∧ c ≠ '?' ∧ c ≠ '#' := by
    rw [toList_searchTarget]
    intro c hc
    rcases List.mem_cons.1 hc with rfl | hc
    · decide
    · exact mem_searchTarget h hc
  have hformed : Target.isFormed (searchTarget segment).toList = true := by
    have hfragment : Target.withoutFragment (searchTarget segment).toList
        = (searchTarget segment).toList :=
      List.takeWhile_eq_self_iff.2 fun c hc => bne_iff_ne.2 (hchars c hc).2.2
    have hpart : Target.isPathAndQuery (searchTarget segment).toList = true := by
      rw [Target.isPathAndQuery, hfragment, Bool.and_eq_true, List.all_eq_true]
      refine ⟨fun c hc => (hchars c (List.takeWhile_subset _ hc)).1, ?_⟩
      rw [List.dropWhile_eq_nil_iff.2 fun c hc => bne_iff_ne.2 (hchars c hc).2.1]
      rfl
    rw [toList_searchTarget] at hpart ⊢
    exact hpart
  rw [Target.isTarget, hformed, Bool.and_true, decide_eq_true_eq]

end Searches

end Http

end CalcJournal
