/-
CalcJournal.Proofs.Json.Lexing — the text of tokens is read back as those tokens.

What is written for a token is one of its texts (`isText_chars`), so it is read from the front of a
text, and what follows it is left untouched. Only a number can be carried on by what follows it, so
a number must not stand in front of another one; no other token starts with a character of a
number. That is all that `IsWritten` asks for besides each token being spelled well, and the main
result `lexText_write` is an induction along the tokens.
-/
import CalcJournal.Proofs.Json.Spelling

namespace CalcJournal.Json

open Text

/-! ## 1. Numbers -/

/-- The exponent of a number with its letter and its sign. -/
def exponentText : Option (Bool × List Char) → List Char
  | none => []
  | some (negative, ds) => 'e' :: (if negative then '-' else '+') :: ds

theorem isPower_exponentText {e : Option (Bool × List Char)} (h : ∀ p ∈ e, IsRun p.2) :
    IsPower (exponentText e) e := by
  cases e with
  | none => exact .none
  | some p =>
    obtain ⟨negative, ds⟩ := p
    cases negative with
    | true => exact .some (.inl rfl) .minus (h _ rfl)
    | false => exact .some (.inl rfl) .plus (h _ rfl)

/-- A number is its sign, its digits, its fraction and its exponent. -/
theorem Number.chars_eq (n : Number) :
    n.chars = (if n.negative then ['-'] else []) ++
      (n.whole ++ (fractionText n.fraction ++ exponentText n.exponent)) := by
  have hparts : n.chars = (if n.negative then ['-'] else []) ++ n.whole
      ++ fractionText n.fraction ++ exponentText n.exponent := rfl
  rw [hparts, List.append_assoc, List.append_assoc]

theorem isNumber_chars {n : Number} (h : n.IsSpelled) : IsNumber n.chars n := by
  rw [n.chars_eq]
  exact .digits h (isPower_exponentText h.exponent)

/-! ## 2. Strings -/

/-- The item as which a character of a string is read. -/
def itemOf (c : Char) : StringItem :=
  if c.toNat < 0x20 ∧ c ≠ '\n' ∧ c ≠ '\r' ∧ c ≠ '\t' ∧ c ≠ '\x08' ∧ c ≠ '\x0c' then
    .unit c.toNat
  else .char c

theorem isQuad_control {n : Nat} (h : n < 0x20) :
    IsQuad ['0', '0', hexChar (n / 16), hexChar (n % 16)] n := by
  have hzero : IsHexDigit '0' 0 := ⟨by decide, .inl rfl⟩
  have hquad := IsQuad.digits hzero hzero ⟨by omega, .inl (rfl : hexChar (n / 16) = _)⟩
    ⟨by omega, .inl (rfl : hexChar (n % 16) = _)⟩
  have hvalue : ((0 * 16 + 0) * 16 + n / 16) * 16 + n % 16 = n := by omega
  rwa [hvalue] at hquad

theorem isBody_escapedChar {cs : List Char} {items : List StringItem} (c : Char)
    (h : IsBody cs items) : IsBody (escapedChar c ++ cs) (itemOf c :: items) := by
  have hshort : ∀ e c, itemOf c = .char c → IsShort e c →
      IsBody (['\\', e] ++ cs) (itemOf c :: items) := by
    intro e c hitem hc
    rw [hitem]
    exact .short hc h
  unfold escapedChar
  split
  case isTrue h => subst h; exact hshort _ _ rfl (by decide)
  split
  case isTrue h => subst h; exact hshort _ _ rfl (by decide)
  split
  case isTrue h => subst h; exact hshort _ _ rfl (by decide)
  split
  case isTrue h => subst h; exact hshort _ _ rfl (by decide)
  split
  case isTrue h => subst h; exact hshort _ _ rfl (by decide)
  split
  case isTrue h => subst h; exact hshort _ _ rfl (by decide)
  split
  case isTrue h => subst h; exact hshort _ _ rfl (by decide)
  split
  case isTrue hquote hslash hn hr ht hb hf hcontrol =>
    rw [itemOf, if_pos ⟨hcontrol, hn, hr, ht, hb, hf⟩]
    exact .unit (isQuad_control hcontrol) h
  case isFalse hquote hslash hn hr ht hb hf hcontrol =>
    rw [itemOf, if_neg fun h => hcontrol h.1]
    exact .plain ⟨hquote, hslash, by omega⟩ h

theorem isTextOf_itemOf {items : List StringItem} {text : List Char} (c : Char)
    (h : IsTextOf items text) : IsTextOf (itemOf c :: items) (c :: text) := by
  unfold itemOf
  split
  case isTrue => exact .unit h
  case isFalse => exact .char h

theorem isBody_escaped (cs : List Char) : IsBody (cs.flatMap escapedChar) (cs.map itemOf) := by
  induction cs with
  | nil => exact .nil
  | cons c cs ih =>
    rw [List.flatMap_cons, List.map_cons]
    exact isBody_escapedChar c ih

theorem isTextOf_map_itemOf (cs : List Char) : IsTextOf (cs.map itemOf) cs := by
  induction cs with
  | nil => exact .nil
  | cons c cs ih => exact isTextOf_itemOf c ih

/-! ## 3. Tokens -/

/-- A token that can be written: a number is spelled well, a string is a text. -/
def Token.IsSpelled : Token → Prop
  | .number n => n.IsSpelled
  | .string text => text.isSome = true
  | .broken => False
  | _ => True

/-- What is written for a token is one of its texts. -/
theorem isText_chars {t : Token} (h : t.IsSpelled) : t.IsText t.chars := by
  cases t with
  | openObject => exact .openObject
  | closeObject => exact .closeObject
  | openArray => exact .openArray
  | closeArray => exact .closeArray
  | comma => exact .comma
  | colon => exact .colon
  | null => exact .null
  | bool b =>
    cases b with
    | true => exact .true
    | false => exact .false
  | number n => exact .number (isNumber_chars h)
  | string text =>
    obtain ⟨cs, rfl⟩ := Option.isSome_iff_exists.1 h
    exact .string (isBody_escaped cs) (isTextOf_map_itemOf cs)
  | broken => exact absurd h id

/-! ## 4. Documents -/

/-- A sequence of tokens that is told apart when it is written without spaces. -/
def IsWritten : List Token → Prop
  | [] => True
  | t :: ts => t.IsSpelled ∧ (t.isNumber = true → ∀ u ∈ ts.head?, u.isNumber = false) ∧
      IsWritten ts

/-- What is written behind a number does not carry it on. -/
theorem stops_write {ts : List Token} (h : IsWritten ts)
    (hhead : ∀ u ∈ ts.head?, u.isNumber = false) : Stops isNumberChar (write ts) := by
  cases ts with
  | nil => exact stops_nil
  | cons t ts =>
    have hnumber := hhead t rfl
    have hspelled := h.1
    cases t with
    | number n => simp [Token.isNumber] at hnumber
    | broken => exact absurd hspelled id
    | bool b => cases b <;> exact stops_cons.2 rfl
    | string text =>
      obtain ⟨cs, rfl⟩ := Option.isSome_iff_exists.1 hspelled
      exact stops_cons.2 rfl
    | _ => exact stops_cons.2 rfl

/-- What is written for tokens spells them. -/
theorem spells_write {ts : List Token} (h : IsWritten ts) : Spells [] (write ts) ts := by
  induction ts with
  | nil => exact .done
  | cons t ts ih =>
    obtain ⟨hspelled, hnext, hts⟩ := h
    refine .token (isText_chars hspelled) (fun hnumber => ?_) (ih hts)
    rw [List.append_nil]
    exact stops_write hts (hnext hnumber)

/-- **The text of tokens is read back as those tokens.** -/
theorem lexText_write {ts : List Token} (h : IsWritten ts) : lexText (write ts) = ts :=
  (spells_write h).lexText_eq

end CalcJournal.Json
