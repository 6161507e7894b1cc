/-
CalcJournal.Proofs.Expression.Rendering — which renderings are read back.

The text of a finite number is a numeral of the grammar whose value is the number
itself, so tokens that alternate, with finite numbers between, render to a derivation:
with one blank in every gap, or with none at all. What stands in the way elsewhere is
one character: an infinity or a not-a-number value puts an `i` or an `N` into the text,
which no derivation spells; and whatever is read has alternating tokens.

The main result is `tokenize_render_iff`.
-/
import CalcJournal.Proofs.Binary64.Shortest
import CalcJournal.Proofs.Expression.Parsing

namespace CalcJournal

open Text Grammar

/-! ## 1. Sequences that alternate -/

namespace Token

/-- The token is a number. -/
def isNumber : Token → Bool
  | .number _ => true
  | .operator _ => false

/-- Numbers stand at the even places and operators at the odd ones, and there are an odd
number of places, so that a number stands first and last. -/
def Alternates (ts : List Token) : Prop :=
  ts.length % 2 = 1 ∧ ∀ (i : Nat) (h : i < ts.length), ts[i].isNumber = true ↔ i % 2 = 0

theorem not_alternates_nil : ¬ Alternates [] := by
  intro h
  simpa using h.1

theorem alternates_singleton {t : Token} : Alternates [t] ↔ t.isNumber = true := by
  constructor
  · intro h
    exact (h.2 0 (by simp)).2 rfl
  · intro h
    refine ⟨rfl, ?_⟩
    intro i hi
    obtain rfl : i = 0 := by simpa using hi
    simpa using h

/-- The first two tokens of a longer sequence are a number and an operator. -/
theorem alternates_cons_cons {t u : Token} {ts : List Token} :
    Alternates (t :: u :: ts) ↔ t.isNumber = true ∧ u.isNumber = false ∧ Alternates ts := by
  constructor
  · intro ⟨hodd, hplace⟩
    refine ⟨(hplace 0 (by simp)).2 rfl, ?_, ?_, ?_⟩
    · have h1 := hplace 1 (by simp)
      simpa using h1
    · rw [List.length_cons, List.length_cons] at hodd
      omega
    · intro i hi
      have hi2 := hplace (i + 2) (by simpa using hi)
      rw [Nat.add_mod_right] at hi2
      simpa using hi2
  · intro ⟨hnumber, hoperator, hodd, hplace⟩
    refine ⟨?_, ?_⟩
    · rw [List.length_cons, List.length_cons]
      omega
    · intro i hi
      cases i with
      | zero => simpa using hnumber
      | succ i =>
        cases i with
        | zero => simpa using hoperator
        | succ i =>
          have hparity : (i + 1 + 1) % 2 = i % 2 := by omega
          rw [hparity]
          simpa using hplace i (by simpa using hi)

end Token

open Token

/-- The tokens of a chain alternate. -/
theorem Chain.alternates_tokens (c : Chain) : Alternates c.tokens := by
  obtain ⟨x, steps⟩ := c
  induction steps generalizing x with
  | nil => exact alternates_singleton.2 rfl
  | cons s steps ih => exact alternates_cons_cons.2 ⟨rfl, rfl, ih s.operand⟩

/-- Tokens that alternate are those of a chain. -/
theorem Token.exists_chain_of_alternates : ∀ ts : List Token, Alternates ts →
    ∃ c : Chain, c.tokens = ts
  | [], h => absurd h not_alternates_nil
  | [t], h => by
      have hnumber := alternates_singleton.1 h
      cases t with
      | number x => exact ⟨⟨x, []⟩, rfl⟩
      | operator op => simp [isNumber] at hnumber
  | t :: u :: ts, h => by
      obtain ⟨hnumber, hoperator, hrest⟩ := alternates_cons_cons.1 h
      obtain ⟨⟨y, steps⟩, rfl⟩ := exists_chain_of_alternates ts hrest
      cases t with
      | operator op => simp [isNumber] at hnumber
      | number x =>
        cases u with
        | number z => simp [isNumber] at hoperator
        | operator op => exact ⟨⟨x, ⟨op, y⟩ :: steps⟩, rfl⟩

/-! ## 2. The text of a finite number -/

namespace Token

/-- The digits of a decimal are in front of its point and behind it. -/
theorem literal_value_decimalChars (negative : Bool) (d : Decimal) :
    Literal.value negative (decimalChars d) =
      Binary64.ofDecimal negative (digitsValue (d.wholeChars ++ d.fractionChars))
        d.fractionChars.length := by
  have hwhole : ∀ c ∈ d.wholeChars, (c != '.') = true := by
    intro c hc
    have hdigit := Decimal.isDigit_of_mem_wholeChars hc
    rw [bne_iff_ne]
    rintro rfl
    simp at hdigit
  unfold decimalChars
  cases hfraction : d.fractionChars with
  | nil =>
    have htake := takeWhile_prefix hwhole stops_nil
    have hdrop := dropWhile_prefix hwhole stops_nil
    rw [List.append_nil] at htake hdrop
    simp [Literal.value, Literal.wholeDigits, Literal.fractionDigits, htake, hdrop]
  | cons c cs =>
    have hstops : Stops (· != '.') ('.' :: c :: cs) := stops_cons.2 rfl
    simp [Literal.value, Literal.wholeDigits, Literal.fractionDigits,
      takeWhile_prefix hwhole hstops, dropWhile_prefix hwhole hstops]

/-- A magnitude's text has the value of the magnitude. -/
theorem literal_value_magnitudeChars (negative : Bool) (rank : Fin Binary64.topRank) :
    Literal.value negative (magnitudeChars rank) = .finite negative rank := by
  unfold magnitudeChars
  split
  case isTrue hzero =>
    have hnearest : Binary64.IsNearest rank.val (0 * Binary64.unitsPerOne) (Nat.pow 10 0) := by
      rw [hzero, Nat.zero_mul]
      exact Binary64.isNearest_zero
    have hread := Binary64.ofDecimal_eq_ofRank negative hnearest
    rw [Binary64.ofRank, dif_pos rank.isLt] at hread
    exact hread
  case isFalse hpos =>
    rw [literal_value_decimalChars,
      Binary64.ofDecimal_shortest .up negative rank (Nat.pos_of_ne_zero hpos)]

theorem isDigit_or_point_of_mem_decimalChars {d : Decimal} {c : Char}
    (h : c ∈ decimalChars d) : c.isDigit = true ∨ c = '.' := by
  unfold decimalChars at h
  split at h
  · exact .inl (Decimal.isDigit_of_mem_wholeChars h)
  · rcases List.mem_append.1 h with h | h
    · exact .inl (Decimal.isDigit_of_mem_wholeChars h)
    · rcases List.mem_cons.1 h with rfl | h
      · exact .inr rfl
      · exact .inl (Decimal.isDigit_of_mem_fractionChars h)

theorem count_point_of_isDigit {cs : List Char} (h : ∀ c ∈ cs, c.isDigit = true) :
    cs.count '.' = 0 := by
  rw [List.count_eq_zero]
  intro hmem
  simpa using h '.' hmem

/-- A decimal's text starts with a digit and has one point at most. -/
theorem decimalChars_wellFormed (d : Decimal) :
    (∃ c ∈ decimalChars d, c.isDigit = true) ∧ (decimalChars d).count '.' ≤ 1 := by
  obtain ⟨c, hc⟩ := List.exists_mem_of_ne_nil _ d.wholeChars_ne_nil
  have hdigit := Decimal.isDigit_of_mem_wholeChars hc
  have hwhole := count_point_of_isDigit fun _ => Decimal.isDigit_of_mem_wholeChars (d := d)
  have hfraction :=
    count_point_of_isDigit fun _ => Decimal.isDigit_of_mem_fractionChars (d := d)
  unfold decimalChars
  split
  · exact ⟨⟨c, hc, hdigit⟩, by omega⟩
  · refine ⟨⟨c, List.mem_append_left _ hc, hdigit⟩, ?_⟩
    rw [List.count_append, List.count_cons_self]
    omega

/-- The text of a magnitude, with a minus or without, is a numeral. -/
def magnitudeNumeral (negative : Bool) (rank : Nat) : Numeral where
  negative := negative
  run := magnitudeChars rank
  digitOrPoint := by
    unfold magnitudeChars
    split
    · simp
    · exact fun _ => isDigit_or_point_of_mem_decimalChars
  someDigit := by
    unfold magnitudeChars
    split
    · exact ⟨'0', by simp, rfl⟩
    · exact (decimalChars_wellFormed _).1
  onePoint := by
    unfold magnitudeChars
    split
    · simp
    · exact (decimalChars_wellFormed _).2

/-- A finite number is the value of a numeral that spells its text. -/
theorem exists_numeral {x : Binary64} (h : x.isFinite = true) :
    ∃ n : Numeral, n.chars = numberChars x ∧ n.value = x := by
  cases x with
  | nan => simp [Binary64.isFinite] at h
  | infinite negative => simp [Binary64.isFinite] at h
  | finite negative rank =>
    refine ⟨magnitudeNumeral negative rank, ?_, ?_⟩
    · cases negative <;> simp [Numeral.chars, magnitudeNumeral, numberChars]
    · rw [Numeral.value]
      exact literal_value_magnitudeChars negative rank

end Token

/-! ## 3. Renderings that are derivations -/

namespace Grammar

/-- No blanks at all. -/
def Blanks.none : Blanks := ⟨[], by simp⟩

/-- A single space. -/
def Blanks.space : Blanks := ⟨[' '], by simp; decide⟩

/-- The text of tokens, each with the same stretch of blanks in front. -/
def spacedChars (gap : Blanks) (ts : List Token) : List Char :=
  ts.flatMap fun t => gap.chars ++ t.chars

/-- Steps with finite numbers are written by links with the same blanks in every gap. -/
theorem exists_links (gap : Blanks) : ∀ steps : List Step,
    (∀ s ∈ steps, s.operand.isFinite = true) →
    ∃ links : List Link, links.map Link.step = steps ∧
      tailChars links Blanks.none =
        spacedChars gap (steps.flatMap fun s => [.operator s.operator, .number s.operand])
  | [], _ => ⟨[], rfl, rfl⟩
  | s :: steps, h => by
      obtain ⟨n, htext, hvalue⟩ := exists_numeral (h s (by simp))
      obtain ⟨links, hsteps, htail⟩ :=
        exists_links gap steps fun u hu => h u (List.mem_cons_of_mem s hu)
      refine ⟨⟨gap, s.operator, gap, n⟩ :: links, ?_, ?_⟩
      · simp [Link.step, hsteps, hvalue]
      · rw [tailChars_cons, htail, htext]
        simp [spacedChars, Token.chars]

/-- A chain of finite numbers is written by a derivation with the same blanks in every
gap. -/
theorem exists_derivation (gap : Blanks) {c : Chain} (hfirst : c.first.isFinite = true)
    (hsteps : ∀ s ∈ c.steps, s.operand.isFinite = true) :
    ∃ d : Derivation, d.chain = c ∧
      d.chars = numberChars c.first ++
        spacedChars gap (c.steps.flatMap fun s => [.operator s.operator, .number s.operand]) := by
  obtain ⟨n, htext, hvalue⟩ := exists_numeral hfirst
  obtain ⟨links, hlinks, htail⟩ := exists_links gap c.steps hsteps
  refine ⟨⟨Blanks.none, n, links, Blanks.none⟩, ?_, ?_⟩
  · simp [Derivation.chain, hvalue, hlinks]
  · rw [Derivation.chars, htext, htail]
    rfl

/-! ## 4. What no derivation spells -/

/-- The characters that a derivation can spell. -/
def isSpelled (c : Char) : Bool :=
  isBlank c || Literal.isLiteralChar c || Operator.isSymbol c

theorem Blanks.isSpelled_of_mem (b : Blanks) {c : Char} (h : c ∈ b.chars) :
    isSpelled c = true := by
  simp [isSpelled, b.blank c h]

theorem Numeral.isSpelled_of_mem (n : Numeral) {c : Char} (h : c ∈ n.chars) :
    isSpelled c = true := by
  have hrun : c ∈ n.run → isSpelled c = true := by
    intro hmem
    simp [isSpelled, n.isLiteralChar_of_mem hmem]
  unfold Numeral.chars at h
  split at h
  · rcases List.mem_cons.1 h with rfl | h
    · decide
    · exact hrun h
  · exact hrun h

theorem isSpelled_of_mem_tailChars (links : List Link) (trail : Blanks) {c : Char}
    (h : c ∈ tailChars links trail) : isSpelled c = true := by
  induction links with
  | nil => exact trail.isSpelled_of_mem h
  | cons l links ih =>
    rw [tailChars_cons] at h
    simp only [List.mem_append, List.mem_cons] at h
    rcases h with hbefore | rfl | hbehind | hoperand | htail
    · exact l.before.isSpelled_of_mem hbefore
    · simp [isSpelled, Operator.isSymbol]
    · exact l.behind.isSpelled_of_mem hbehind
    · exact l.operand.isSpelled_of_mem hoperand
    · exact ih htail

/-- A derivation spells blanks, digits, points and symbols only. -/
theorem Derivation.isSpelled_of_mem (d : Derivation) {c : Char} (h : c ∈ d.chars) :
    isSpelled c = true := by
  rw [Derivation.chars, List.mem_append, List.mem_append] at h
  rcases h with hlead | hfirst | htail
  · exact d.lead.isSpelled_of_mem hlead
  · exact d.first.isSpelled_of_mem hfirst
  · exact isSpelled_of_mem_tailChars d.links d.trail htail

end Grammar

/-- The text of a number that is not finite has a character that no derivation spells. -/
theorem Token.exists_not_isSpelled {x : Binary64} (h : x.isFinite = false) :
    ∃ c ∈ numberChars x, isSpelled c = false := by
  cases x with
  | nan => exact ⟨'N', by simp [numberChars], by decide⟩
  | infinite negative =>
    refine ⟨'i', ?_, by decide⟩
    cases negative <;> simp [numberChars]
  | finite negative rank => simp [Binary64.isFinite] at h

/-! ## 5. Rendered sequences -/

namespace Token

/-- Behind the first token, every token has a space in front. -/
theorem renderChars_cons (t : Token) : ∀ ts : List Token,
    renderChars (t :: ts) = t.chars ++ spacedChars Blanks.space ts
  | [] => by simp [renderChars, spacedChars]
  | u :: ts => by
      rw [renderChars, renderChars_cons u ts]
      simp [spacedChars, Blanks.space]

/-- Every token's text is a part of the rendering. -/
theorem mem_renderChars {t : Token} {ts : List Token} (ht : t ∈ ts) {c : Char}
    (hc : c ∈ t.chars) : c ∈ renderChars ts := by
  cases ts with
  | nil => simp at ht
  | cons u ts =>
    rw [renderChars_cons]
    rcases List.mem_cons.1 ht with rfl | ht
    · exact List.mem_append_left _ hc
    · refine List.mem_append_right _ (List.mem_flatMap.2 ⟨t, ht, ?_⟩)
      exact List.mem_append_right _ hc

/-- The texts of the tokens one after the other, with nothing between them. -/
def compact (ts : List Token) : String := String.join (ts.map text)

/-- Nothing in front of a token is the empty stretch of blanks. -/
theorem toList_compact (ts : List Token) :
    (compact ts).toList = spacedChars Blanks.none ts := by
  simp [compact, spacedChars, Blanks.none, text, String.toList_join, List.flatMap_map]

end Token

/-- The finite numbers of a chain are those of its tokens. -/
theorem Chain.isFinite_of_tokens {c : Chain}
    (h : ∀ x, Token.number x ∈ c.tokens → x.isFinite = true) :
    c.first.isFinite = true ∧ ∀ s ∈ c.steps, s.operand.isFinite = true := by
  refine ⟨h c.first (by simp [tokens]), ?_⟩
  intro s hs
  refine h s.operand (List.mem_cons_of_mem _ (List.mem_flatMap.2 ⟨s, hs, ?_⟩))
  simp

namespace Expression

/-- A chain of finite numbers is read from its tokens with the same blanks in every gap. -/
theorem parseChars_spacedChars (gap : Blanks) {c : Chain}
    (h : ∀ x, Token.number x ∈ c.tokens → x.isFinite = true) :
    parseChars (numberChars c.first ++
      spacedChars gap (c.steps.flatMap fun s => [.operator s.operator, .number s.operand]))
      = .ok c := by
  obtain ⟨hfirst, hsteps⟩ := Chain.isFinite_of_tokens h
  obtain ⟨d, hchain, hchars⟩ := exists_derivation gap hfirst hsteps
  exact parseChars_eq_ok_iff.2 ⟨d, hchars, hchain⟩

/-- The tokens that a text has are those of the chain that it writes. -/
theorem tokenize_eq_ok_iff {s : String} {ts : List Token} :
    tokenize s = .ok ts ↔ ∃ c : Chain, parse s = .ok c ∧ c.tokens = ts := by
  unfold tokenize
  cases parse s with
  | error e => simp [Except.map]
  | ok c => simp [Except.map]

/-- A rendering with a number that is not finite has no tokens. -/
theorem tokenize_render_error {ts : List Token} {x : Binary64} (hx : Token.number x ∈ ts)
    (h : x.isFinite = false) : ∃ e, tokenize (render ts) = .error e := by
  cases htokens : tokenize (render ts) with
  | error e => exact ⟨e, rfl⟩
  | ok us =>
    obtain ⟨c, hparse, -⟩ := tokenize_eq_ok_iff.1 htokens
    rw [parse, render, String.toList_ofList] at hparse
    obtain ⟨d, hchars, -⟩ := derivation_of_parseChars hparse
    obtain ⟨ch, hmem, hnot⟩ := exists_not_isSpelled h
    have hspelled := d.isSpelled_of_mem (hchars ▸ mem_renderChars hx hmem)
    rw [hnot] at hspelled
    simp at hspelled

/-- A chain of finite numbers is read from the rendering of its tokens. -/
theorem parse_render {c : Chain} (h : ∀ x, Token.number x ∈ c.tokens → x.isFinite = true) :
    parse (render c.tokens) = .ok c := by
  rw [parse, render, String.toList_ofList, Chain.tokens, renderChars_cons]
  exact parseChars_spacedChars Blanks.space h

/-- **Rendering and reading.** A rendering is read back as the tokens that it was made of
if and only if they alternate, from a number to a number, and every number is finite; a
rendering with a number that is not finite has no tokens at all. The tokens of a chain of
finite numbers need not even be kept apart: written one right after the other, they are
read as the same chain. -/
theorem tokenize_render_iff :
    (∀ ts : List Token,
      (tokenize (render ts) = .ok ts ↔
        Alternates ts ∧ ∀ x, Token.number x ∈ ts → x.isFinite = true) ∧
      ((∃ x, Token.number x ∈ ts ∧ x.isFinite = false) →
        ∃ e, tokenize (render ts) = .error e)) ∧
    ∀ c : Chain, (∀ x, Token.number x ∈ c.tokens → x.isFinite = true) →
      parse (compact c.tokens) = .ok c := by
  refine ⟨fun ts => ⟨⟨?_, ?_⟩, ?_⟩, ?_⟩
  · intro htokens
    refine ⟨?_, ?_⟩
    · obtain ⟨c, -, rfl⟩ := tokenize_eq_ok_iff.1 htokens
      exact c.alternates_tokens
    · intro x hx
      cases hfinite : x.isFinite with
      | true => rfl
      | false =>
        obtain ⟨e, he⟩ := tokenize_render_error hx hfinite
        rw [htokens] at he
        simp at he
  · rintro ⟨halternates, hfinite⟩
    obtain ⟨c, rfl⟩ := exists_chain_of_alternates ts halternates
    exact tokenize_eq_ok_iff.2 ⟨c, parse_render hfinite, rfl⟩
  · rintro ⟨x, hx, hnot⟩
    exact tokenize_render_error hx hnot
  · intro c hfinite
    rw [parse, toList_compact]
    exact parseChars_spacedChars Blanks.none hfinite

end Expression

end CalcJournal
