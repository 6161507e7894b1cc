/-
CalcJournal.Proofs.Json.Spelling — the texts that tokens have, and that they are read as those
tokens.

A token has many texts. The letter of an exponent may be a capital, and its plus may be left out.
A character of a string may stand for itself, may be escaped by a letter, or by its UTF-16 code
units, and their digits may be capitals. Any spaces may stand between tokens (`Spells`).

A number goes as far as it can, so it must not be followed by what carries it on; no other token
depends on what follows it. A string need not be a text, since a surrogate may lack its partner.
-/
import CalcJournal.Json.Lexer
import CalcJournal.Proofs.Json.Number
import CalcJournal.Proofs.Text.Scanning

namespace CalcJournal.Json

open Text

/-! ## 1. Numbers -/

/-- The characters that carry a number on. -/
def isNumberChar (c : Char) : Bool := c.isDigit || c == '.' || c == 'e' || c == 'E'

theorem stops_isDigit {rest : List Char} (h : Stops isNumberChar rest) :
    Stops Char.isDigit rest := by
  intro c hc
  have := h c hc
  simp only [isNumberChar, Bool.or_eq_false_iff] at this
  exact this.1.1.1

theorem takeDigits_append {ds rest : List Char} (hds : ∀ c ∈ ds, c.isDigit = true)
    (hstop : Stops Char.isDigit rest) :
    takeDigits ((ds ++ rest).map some) = (ds, rest.map some) := by
  induction ds with
  | nil =>
    cases rest with
    | nil => rfl
    | cons c rest => simp [takeDigits, stops_cons.1 hstop]
  | cons d ds ih =>
    have hd := hds d (by simp)
    have hrest := ih fun c hc => hds c (by simp [hc])
    simp only [List.cons_append, List.map_cons, takeDigits, hd, if_true, hrest]

theorem whole?_append {ds rest : List Char} (hrun : IsRun ds)
    (hleading : ds = ['0'] ∨ ds.head? ≠ some '0') (hstop : Stops Char.isDigit rest) :
    whole? ((ds ++ rest).map some) = some (ds, rest.map some) := by
  rw [whole?, takeDigits_append hrun.2 hstop]
  split
  case h_1 heq => exact absurd (Prod.mk.inj heq).1 hrun.1
  case h_2 heq =>
    rw [(Prod.mk.inj heq).1] at hleading
    simp at hleading
  case h_3 => rfl

/-- The fraction of a number with the point in front of it. -/
def fractionText (ds : List Char) : List Char := if ds.isEmpty then [] else '.' :: ds

theorem fraction?_append {ds rest : List Char} (hds : ∀ c ∈ ds, c.isDigit = true)
    (hstop : Stops Char.isDigit rest) (hpoint : Stops (· == '.') rest) :
    fraction? ((fractionText ds ++ rest).map some) = some (ds, rest.map some) := by
  cases ds with
  | nil =>
    cases rest with
    | nil => rfl
    | cons c rest =>
      have hc : c ≠ '.' := by simpa using stops_cons.1 hpoint
      simp [fractionText, fraction?, hc]
  | cons d ds =>
    have htake := takeDigits_append hds hstop
    simp only [fractionText, List.isEmpty_cons, Bool.false_eq_true, if_false,
      List.cons_append, List.map_cons, fraction?] at htake ⊢
    rw [htake]

/-- The sign of an exponent; a plus may be left out. -/
inductive IsPowerSign : List Char → Bool → Prop
  | none : IsPowerSign [] false
  | plus : IsPowerSign ['+'] false
  | minus : IsPowerSign ['-'] true

/-- An exponent behind its letter, if there is one. -/
inductive IsPower : List Char → Option (Bool × List Char) → Prop
  | none : IsPower [] none
  | some {letter : Char} {sign ds : List Char} {negative : Bool}
      (hletter : letter = 'e' ∨ letter = 'E') (hsign : IsPowerSign sign negative)
      (hrun : IsRun ds) : IsPower (letter :: (sign ++ ds)) (some (negative, ds))

theorem powerSign_append {sign ds : List Char} {negative : Bool}
    (hsign : IsPowerSign sign negative) (hrun : IsRun ds) (rest : List Char) :
    powerSign ((sign ++ ds ++ rest).map some) = (negative, (ds ++ rest).map some) := by
  cases hsign with
  | none =>
    cases ds with
    | nil => exact absurd rfl hrun.1
    | cons d ds =>
      have hd := hrun.2 d (by simp)
      have hminus : d ≠ '-' := by rintro rfl; simp [Char.isDigit] at hd
      have hplus : d ≠ '+' := by rintro rfl; simp [Char.isDigit] at hd
      simp [powerSign, hminus, hplus]
  | plus => rfl
  | minus => rfl

theorem exponent?_append {power : List Char} {e : Option (Bool × List Char)} {rest : List Char}
    (h : IsPower power e) (hstop : Stops isNumberChar rest) :
    exponent? ((power ++ rest).map some) = some (e, rest.map some) := by
  cases h with
  | none =>
    cases rest with
    | nil => rfl
    | cons c rest =>
      have hc := stops_cons.1 hstop
      simp only [isNumberChar, Bool.or_eq_false_iff, beq_eq_false_iff_ne] at hc
      simp [exponent?, hc.1.2, hc.2]
  | @some letter sign ds negative hletter hsign hrun =>
    have htake := takeDigits_append hrun.2 (stops_isDigit hstop)
    have hpower : power? ((sign ++ ds ++ rest).map some) = some ((negative, ds), rest.map some) := by
      rw [power?, powerSign_append hsign hrun, htake]
      cases ds with
      | nil => exact absurd rfl hrun.1
      | cons d ds => rfl
    rcases hletter with rfl | rfl <;>
      rw [List.cons_append, List.map_cons, exponent?, hpower, Option.map_some]

/-- A number in digits: its sign, its whole digits, its fraction and its exponent. -/
inductive IsNumber : List Char → Number → Prop
  | digits {n : Number} {power : List Char} (h : n.IsSpelled) (hpower : IsPower power n.exponent) :
      IsNumber ((if n.negative then ['-'] else []) ++
        (n.whole ++ (fractionText n.fraction ++ power))) n

/-- A number behind its sign is read in front of a text that does not carry it on. -/
theorem unsigned?_append {n : Number} {power : List Char} (h : n.IsSpelled)
    (hpower : IsPower power n.exponent) {rest : List Char} (hstop : Stops isNumberChar rest) :
    unsigned? n.negative
      ((n.whole ++ (fractionText n.fraction ++ power) ++ rest).map some)
      = some (n, rest.map some) := by
  have hexponent : Stops Char.isDigit (power ++ rest) ∧ Stops (· == '.') (power ++ rest) := by
    generalize n.exponent = e at hpower
    cases hpower with
    | none =>
      refine ⟨stops_isDigit hstop, fun c hc => ?_⟩
      have := hstop c hc
      simp only [isNumberChar, Bool.or_eq_false_iff] at this
      exact this.1.1.2
    | some hletter =>
      rcases hletter with rfl | rfl <;> exact ⟨stops_cons.2 rfl, stops_cons.2 rfl⟩
  have hfraction : Stops Char.isDigit (fractionText n.fraction ++ (power ++ rest)) := by
    cases n.fraction with
    | nil => exact hexponent.1
    | cons d ds => exact stops_cons.2 rfl
  simp only [List.append_assoc]
  simp only [unsigned?, whole?_append h.whole h.leading hfraction,
    fraction?_append h.fraction hexponent.1 hexponent.2, exponent?_append hpower hstop,
    Option.bind_eq_bind, Option.bind_some, Option.pure_def]

/-! ## 2. Strings -/

/-- A hexadecimal digit, small or capital, and its value. -/
def IsHexDigit (c : Char) (v : Nat) : Prop :=
  v < 16 ∧ (c = Nat.digitChar v ∨ c = (Nat.digitChar v).toUpper)

/-- A code unit in four digits. -/
inductive IsQuad : List Char → Nat → Prop
  | digits {a b c d : Char} {u v w x : Nat} (ha : IsHexDigit a u) (hb : IsHexDigit b v)
      (hc : IsHexDigit c w) (hd : IsHexDigit d x) :
      IsQuad [a, b, c, d] (((u * 16 + v) * 16 + w) * 16 + x)

/-- The letters behind a backslash, and what they stand for. -/
def IsShort (e c : Char) : Prop :=
  (e, c) ∈ [('"', '"'), ('\\', '\\'), ('/', '/'), ('b', '\x08'), ('f', '\x0c'), ('n', '\n'),
    ('r', '\r'), ('t', '\t')]

instance (e c : Char) : Decidable (IsShort e c) := inferInstanceAs (Decidable (_ ∈ _))

/-- What stands between the quotes of a string. -/
inductive IsBody : List Char → List StringItem → Prop
  | nil : IsBody [] []
  | plain {c : Char} {cs : List Char} {items : List StringItem}
      (hc : c ≠ '"' ∧ c ≠ '\\' ∧ 0x20 ≤ c.toNat) (h : IsBody cs items) :
      IsBody (c :: cs) (.char c :: items)
  | short {e c : Char} {cs : List Char} {items : List StringItem} (hc : IsShort e c)
      (h : IsBody cs items) : IsBody ('\\' :: e :: cs) (.char c :: items)
  | unit {quad cs : List Char} {n : Nat} {items : List StringItem} (hquad : IsQuad quad n)
      (h : IsBody cs items) : IsBody ('\\' :: 'u' :: (quad ++ cs)) (.unit n :: items)

/-- The text of a string. A code unit is a character, or half of one together with another. -/
inductive IsTextOf : List StringItem → List Char → Prop
  | nil : IsTextOf [] []
  | char {c : Char} {items : List StringItem} {text : List Char} (h : IsTextOf items text) :
      IsTextOf (.char c :: items) (c :: text)
  | unit {c : Char} {items : List StringItem} {text : List Char} (h : IsTextOf items text) :
      IsTextOf (.unit c.toNat :: items) (c :: text)
  | pair {n m : Nat} {c : Char} {items : List StringItem} {text : List Char}
      (hhigh : 0xD800 ≤ n ∧ n < 0xDC00) (hlow : 0xDC00 ≤ m ∧ m < 0xE000)
      (hc : c.toNat = 0x10000 + (n - 0xD800) * 0x400 + (m - 0xDC00)) (h : IsTextOf items text) :
      IsTextOf (.unit n :: .unit m :: items) (c :: text)

theorem hexValue?_of_isHexDigit {c : Char} {v : Nat} (h : IsHexDigit c v) :
    hexValue? c = some v := by
  have hsmall : ∀ v, v < 16 → hexValue? (Nat.digitChar v) = some v := by decide
  have hcapital : ∀ v, v < 16 → hexValue? (Nat.digitChar v).toUpper = some v := by decide
  rcases h with ⟨hv, rfl | rfl⟩
  · exact hsmall v hv
  · exact hcapital v hv

theorem shortEscape?_of_isShort {e c : Char} (h : IsShort e c) :
    e ≠ 'u' ∧ shortEscape? e = some c := by
  simp only [IsShort, List.mem_cons, Prod.mk.injEq, List.not_mem_nil, or_false] at h
  rcases h with ⟨rfl, rfl⟩ | ⟨rfl, rfl⟩ | ⟨rfl, rfl⟩ | ⟨rfl, rfl⟩ | ⟨rfl, rfl⟩ | ⟨rfl, rfl⟩ |
    ⟨rfl, rfl⟩ | ⟨rfl, rfl⟩ <;> decide

/-- A body is read up to its closing quote. -/
theorem stringItems?_append {cs : List Char} {items : List StringItem} (h : IsBody cs items)
    (ps : List Utf8.Piece) : stringItems? (cs.map some ++ some '"' :: ps) = some (items, ps) := by
  induction h with
  | nil => rfl
  | @plain c cs items hc h ih =>
    obtain ⟨hquote, hslash, hcontrol⟩ := hc
    have hnot : ¬ c.toNat < 0x20 := by omega
    simp [stringItems?, hslash, hnot, ih]
  | @short e c cs items hc h ih =>
    obtain ⟨hunit, hshort⟩ := shortEscape?_of_isShort hc
    simp [stringItems?, hunit, hshort, ih]
  | @unit quad cs n items hquad h ih =>
    cases hquad with
    | digits ha hb hc hd =>
      simp only [List.cons_append, List.nil_append, List.map_cons, stringItems?, hexQuad?,
        hexValue?_of_isHexDigit ha, hexValue?_of_isHexDigit hb, hexValue?_of_isHexDigit hc,
        hexValue?_of_isHexDigit hd, Option.bind_eq_bind, Option.bind_some, Option.pure_def, ih,
        Option.map_some]

theorem itemsText?_unit {n : Nat} (h : n.isValidChar) (items : List StringItem) :
    itemsText? (.unit n :: items) = (itemsText? items).map (Char.ofNatAux n h :: ·) := by
  cases items with
  | nil => exact dif_pos h
  | cons item rest => cases item <;> exact dif_pos h

theorem itemsText?_units {n : Nat} (h : ¬ n.isValidChar) (m : Nat) (items : List StringItem) :
    itemsText? (.unit n :: .unit m :: items)
      = if n < 0xDC00 ∧ 0xDC00 ≤ m ∧ m < 0xE000 then
          (itemsText? items).map (Char.ofNat (0x10000 + (n - 0xD800) * 0x400 + (m - 0xDC00)) :: ·)
        else none :=
  dif_neg h

/-- A surrogate is no text without another one behind it. -/
theorem itemsText?_lone {n : Nat} (h : ¬ n.isValidChar) {items : List StringItem}
    (hitems : ∀ m rest, items ≠ .unit m :: rest) : itemsText? (.unit n :: items) = none := by
  cases items with
  | nil => exact dif_neg h
  | cons item rest =>
    cases item with
    | unit m => exact absurd rfl (hitems m rest)
    | char c => exact dif_neg h
    | stray => exact dif_neg h

/-- **What items are read as is their text.** -/
theorem itemsText?_eq_some_iff {items : List StringItem} {text : List Char} :
    itemsText? items = some text ↔ IsTextOf items text := by
  constructor
  · intro h
    induction items using itemsText?.induct generalizing text with
    | case1 =>
      obtain rfl := Option.some.inj h
      exact .nil
    | case2 c rest ih =>
      obtain ⟨text, hrest, rfl⟩ := Option.map_eq_some_iff.1 h
      exact .char (ih hrest)
    | case3 => exact absurd h (Option.some_ne_none _).symm
    | case4 n rest hvalid ih =>
      rw [itemsText?_unit hvalid] at h
      obtain ⟨text, hrest, rfl⟩ := Option.map_eq_some_iff.1 h
      exact @IsTextOf.unit (Char.ofNatAux n hvalid) _ _ (ih hrest)
    | case5 n hvalid m rest hpair ih =>
      rw [itemsText?_units hvalid, if_pos hpair] at h
      obtain ⟨text, hrest, rfl⟩ := Option.map_eq_some_iff.1 h
      simp only [Nat.isValidChar] at hvalid
      have hcode : (0x10000 + (n - 0xD800) * 0x400 + (m - 0xDC00)).isValidChar := by
        simp only [Nat.isValidChar]
        omega
      refine .pair (by omega) ⟨hpair.2.1, hpair.2.2⟩ ?_ (ih hrest)
      rw [Char.ofNat, dif_pos hcode]
      rfl
    | case6 n hvalid m rest hpair =>
      rw [itemsText?_units hvalid, if_neg hpair] at h
      exact absurd h (Option.some_ne_none _).symm
    | case7 n rest hvalid hrest =>
      rw [itemsText?_lone hvalid hrest] at h
      exact absurd h (Option.some_ne_none _).symm
  · intro h
    induction h with
    | nil => rfl
    | @char c items text h ih =>
      exact Option.map_eq_some_iff.2 ⟨text, ih, rfl⟩
    | @unit c items text h ih =>
      have hvalid : c.toNat.isValidChar := c.valid
      rw [itemsText?_unit hvalid, ih]
      rfl
    | @pair n m c items text hhigh hlow hc h ih =>
      have hnot : ¬ n.isValidChar := by
        simp only [Nat.isValidChar]
        omega
      rw [itemsText?_units hnot, if_pos (by omega), ih, ← hc, Char.ofNat_toNat, Option.map_some]

/-! ## 3. Tokens -/

/-- The texts of a token. A string that is no text has none of the texts of a string. -/
inductive Token.IsText : Token → List Char → Prop
  | openObject : IsText .openObject ['{']
  | closeObject : IsText .closeObject ['}']
  | openArray : IsText .openArray ['[']
  | closeArray : IsText .closeArray [']']
  | comma : IsText .comma [',']
  | colon : IsText .colon [':']
  | null : IsText .null ['n', 'u', 'l', 'l']
  | true : IsText (.bool true) ['t', 'r', 'u', 'e']
  | false : IsText (.bool false) ['f', 'a', 'l', 's', 'e']
  | number {cs : List Char} {n : Number} (h : IsNumber cs n) : IsText (.number n) cs
  | string {cs text : List Char} {items : List StringItem} (hbody : IsBody cs items)
      (h : IsTextOf items text) : IsText (.string (some text)) ('"' :: (cs ++ ['"']))
  | broken {cs : List Char} {items : List StringItem} (hbody : IsBody cs items)
      (h : ∀ text, ¬ IsTextOf items text) : IsText (.string none) ('"' :: (cs ++ ['"']))

/-- A token that what follows it may carry on. -/
def Token.isNumber : Token → Bool
  | .number _ => true
  | _ => false

theorem token?_of_isDigit {c : Char} (h : c.isDigit = true) (ps : List Utf8.Piece) :
    token? c ps = (unsigned? false (some c :: ps)).map fun (n, after) => (.number n, after) := by
  unfold token?
  split <;> first | rfl | simp [Char.isDigit] at h

theorem isSpace_of_isDigit {c : Char} (h : c.isDigit = true) : isSpace c = false := by
  refine Bool.eq_false_iff.2 fun hspace => ?_
  simp only [isSpace, Bool.or_eq_true, beq_iff_eq] at hspace
  rcases hspace with ((rfl | rfl) | rfl) | rfl <;> simp [Char.isDigit] at h

/-- The text of a token starts with a character that is no space, and behind it the rest of
the token is read in front of a text that does not carry the token on. -/
def Token.ReadsFrom (t : Token) (c : Char) (cs : List Char) : Prop :=
  isSpace c = false ∧ ∀ rest, (t.isNumber = true → Stops isNumberChar rest) →
    token? c ((cs ++ rest).map some) = some (t, rest.map some)

theorem readsFrom_number {text : List Char} {n : Number} (h : IsNumber text n) :
    ∃ c cs, text = c :: cs ∧ (Token.number n).ReadsFrom c cs := by
  cases h with
  | @digits n power h hpower =>
    cases hnegative : n.negative with
    | true =>
      refine ⟨'-', n.whole ++ (fractionText n.fraction ++ power), rfl, rfl, ?_⟩
      intro rest hstop
      have hread := unsigned?_append h hpower (hstop rfl)
      rw [hnegative] at hread
      simp only [token?, hread, Option.map_some]
    | false =>
      cases hwhole : n.whole with
      | nil => exact absurd hwhole h.whole.1
      | cons c cs =>
        have hdigit : c.isDigit = true := h.whole.2 c (by rw [hwhole]; simp)
        refine ⟨c, cs ++ (fractionText n.fraction ++ power), rfl, isSpace_of_isDigit hdigit, ?_⟩
        intro rest hstop
        have hread := unsigned?_append h hpower (hstop rfl)
        rw [hnegative, hwhole] at hread
        rw [token?_of_isDigit hdigit]
        simp only [List.cons_append, List.map_cons] at hread
        rw [hread, Option.map_some]

theorem readsFrom_string {cs : List Char} {items : List StringItem} (h : IsBody cs items) :
    (Token.string (itemsText? items)).ReadsFrom '"' (cs ++ ['"']) := by
  refine ⟨rfl, fun rest _ => ?_⟩
  have hitems := stringItems?_append h (rest.map some)
  simp only [token?, List.append_assoc, List.cons_append, List.nil_append, List.map_append,
    List.map_cons, hitems, Option.map_some]

theorem readsFrom_text {t : Token} {text : List Char} (h : t.IsText text) :
    ∃ c cs, text = c :: cs ∧ t.ReadsFrom c cs := by
  cases h with
  | number h => exact readsFrom_number h
  | string hbody h =>
    have hread := readsFrom_string hbody
    rw [itemsText?_eq_some_iff.2 h] at hread
    exact ⟨'"', _, rfl, hread⟩
  | broken hbody h =>
    have hread := readsFrom_string hbody
    have hnone := Option.eq_none_iff_forall_ne_some.2 fun text ht =>
      h text (itemsText?_eq_some_iff.1 ht)
    rw [hnone] at hread
    exact ⟨'"', _, rfl, hread⟩
  | _ => exact ⟨_, _, rfl, rfl, fun _ _ => rfl⟩

/-- **A token is read from the front of a text**, unless what follows carries it on. -/
theorem lex_text_append {t : Token} {text rest : List Char} (h : t.IsText text)
    (hstop : t.isNumber = true → Stops isNumberChar rest) :
    lex ((text ++ rest).map some) = t :: lex (rest.map some) := by
  obtain ⟨c, cs, rfl, hspace, hread⟩ := readsFrom_text h
  have htoken := hread rest hstop
  rw [List.cons_append, List.map_cons, lex, if_neg (by simp [hspace])]
  split
  case h_1 hnone => rw [htoken] at hnone; simp at hnone
  case h_2 u after hsome =>
    rw [htoken] at hsome
    obtain ⟨rfl, rfl⟩ := Prod.mk.inj (Option.some.inj hsome)
    rfl

/-! ## 4. Texts -/

/-- A text in front of another one spells tokens, with any spaces between them. A number must not
be carried on by what is behind it. -/
inductive Spells (after : List Char) : List Char → List Token → Prop
  | done : Spells after [] []
  | space {c : Char} {cs : List Char} {ts : List Token}
      (hc : c = ' ' ∨ c = '\t' ∨ c = '\n' ∨ c = '\r') (h : Spells after cs ts) :
      Spells after (c :: cs) ts
  | token {t : Token} {text cs : List Char} {ts : List Token} (ht : t.IsText text)
      (hstop : t.isNumber = true → Stops isNumberChar (cs ++ after)) (h : Spells after cs ts) :
      Spells after (text ++ cs) (t :: ts)

/-- **What is spelled is read**, and then what is behind it. -/
theorem Spells.lex_append {after cs : List Char} {ts : List Token} (h : Spells after cs ts) :
    lexText (cs ++ after) = ts ++ lexText after := by
  induction h with
  | done => rfl
  | @space c cs ts hc h ih =>
    have hspace : isSpace c = true := by
      rcases hc with rfl | rfl | rfl | rfl <;> rfl
    rw [lexText, List.cons_append, List.map_cons, lex, if_pos hspace]
    exact ih
  | @token t text cs ts ht hstop h ih =>
    rw [lexText, List.append_assoc, lex_text_append ht hstop, List.cons_append, ← ih]
    rfl

theorem Spells.lexText_eq {cs : List Char} {ts : List Token} (h : Spells [] cs ts) :
    lexText cs = ts := by
  have hlex := h.lex_append
  rwa [List.append_nil, lexText, lexText, List.map_nil, lex, List.append_nil] at hlex

end CalcJournal.Json
