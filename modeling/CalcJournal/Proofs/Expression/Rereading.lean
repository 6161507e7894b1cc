/-
CalcJournal.Proofs.Expression.Rereading — rendering what was read, and reading it again.

What has been read is a chain, and its tokens are rendered with the digits that suffice to
read each number back. So an expression survives the way through its tokens as long as every
number in them is finite. A numeral of any length is read as the nearest double, and the only
numerals that are not read as finite numbers are those from `overflowBound` on: their tokens
are infinities, whose text is no expression any more.
-/
import CalcJournal.Proofs.Binary64.Overflow
import CalcJournal.Proofs.Expression.Rendering

namespace CalcJournal

/-! ## 1. The numbers of an expression -/

namespace Grammar

/-- The decimal that a number spells is below the bound from which on there are only
infinities. -/
def Numeral.InRange (n : Numeral) : Prop :=
  Text.digitsValue (Literal.wholeDigits n.run ++ Literal.fractionDigits n.run)
    < Binary64.overflowBound * Nat.pow 10 (Literal.fractionDigits n.run).length

instance (n : Numeral) : Decidable n.InRange := inferInstanceAs (Decidable (_ < _))

/-- A number has a finite value exactly when it is in range. -/
theorem Numeral.isFinite_value (n : Numeral) : n.value.isFinite = true ↔ n.InRange := by
  rw [value, Literal.value, Binary64.isFinite_ofDecimal, InRange]

/-- The numbers of an expression, in the order in which they are spelled. -/
def Derivation.numerals (d : Derivation) : List Numeral := d.first :: d.links.map Link.operand

theorem Link.operand_step (l : Link) : l.step.operand = l.operand.value := by
  rw [Link.step]

/-- The number tokens are the values of the numbers that are spelled. -/
theorem Derivation.number_mem_tokens {d : Derivation} {x : Binary64} :
    Token.number x ∈ d.chain.tokens ↔ ∃ n ∈ d.numerals, n.value = x := by
  have hsteps : (∃ t ∈ d.links.map Link.step, x = t.operand) ↔
      ∃ n ∈ d.links.map Link.operand, n.value = x := by
    constructor
    · rintro ⟨t, ht, rfl⟩
      obtain ⟨l, hl, rfl⟩ := List.mem_map.1 ht
      exact ⟨l.operand, List.mem_map_of_mem hl, l.operand_step.symm⟩
    · rintro ⟨n, hn, rfl⟩
      obtain ⟨l, hl, rfl⟩ := List.mem_map.1 hn
      exact ⟨l.step, List.mem_map_of_mem hl, l.operand_step.symm⟩
  simp only [Chain.tokens, chain, numerals, List.mem_cons, Token.number.injEq, List.mem_flatMap,
    reduceCtorEq, List.not_mem_nil, or_false, false_or, hsteps, exists_eq_or_imp]
  exact or_congr_left eq_comm

/-- The tokens of an expression are finite exactly when its numbers are in range. -/
theorem Derivation.isFinite_tokens (d : Derivation) :
    (∀ x, Token.number x ∈ d.chain.tokens → x.isFinite = true) ↔
      ∀ n ∈ d.numerals, n.InRange := by
  constructor
  · intro hfinite n hn
    exact n.isFinite_value.1 (hfinite n.value (number_mem_tokens.2 ⟨n, hn, rfl⟩))
  · intro hrange x hx
    obtain ⟨n, hn, rfl⟩ := number_mem_tokens.1 hx
    exact n.isFinite_value.2 (hrange n hn)

end Grammar

/-! ## 2. There and back -/

namespace Expression

open Grammar Token

/-- What becomes of an expression, spelled by a derivation, on the way through its tokens. -/
structure Rereads (s : String) (ts : List Token) (d : Derivation) : Prop where
  /-- The derivation is that of the expression. -/
  spells : d.chars = s.toList
  /-- The tokens come back exactly when every number is in range. -/
  tokens : tokenize (render ts) = .ok ts ↔ ∀ n ∈ d.numerals, n.InRange
  /-- The value is then the same. -/
  value : (∀ n ∈ d.numerals, n.InRange) → evaluate (render ts) = evaluate s
  /-- When a number is out of range, the rendered tokens are no expression. -/
  outOfRange : (∃ n ∈ d.numerals, ¬ n.InRange) →
    (∃ e, tokenize (render ts) = .error e) ∧ ∃ e, evaluate (render ts) = .error e

/-- The tokens of an expression with a number out of range render to no expression. -/
theorem parse_render_error {d : Derivation} (h : ∃ n ∈ d.numerals, ¬ n.InRange) :
    ∃ e, parse (render d.chain.tokens) = .error e := by
  obtain ⟨n, hn, hover⟩ := h
  have hinfinite : n.value.isFinite = false := by
    rw [← Bool.not_eq_true, n.isFinite_value]
    exact hover
  obtain ⟨e, he⟩ :=
    tokenize_render_error (Derivation.number_mem_tokens.2 ⟨n, hn, rfl⟩) hinfinite
  cases hparse : parse (render d.chain.tokens) with
  | error e' => exact ⟨e', rfl⟩
  | ok c => simp [tokenize, hparse, Except.map] at he

/-- **An expression is read again from its rendered tokens exactly when its numbers are in
range**: the tokens are then the same as before, and so is the value. A number out of range is
read as an infinity, and its rendered token is no number any more. -/
theorem tokenize_render_of_tokenize {s : String} {ts : List Token} (h : tokenize s = .ok ts) :
    ∃ d : Derivation, Rereads s ts d := by
  obtain ⟨c, hparse, rfl⟩ := tokenize_eq_ok_iff.1 h
  obtain ⟨d, hchars, rfl⟩ := derivation_of_parseChars hparse
  have hagain : (∀ n ∈ d.numerals, n.InRange) → parse (render d.chain.tokens) = .ok d.chain :=
    fun hrange => parse_render (d.isFinite_tokens.2 hrange)
  refine ⟨d, hchars, ⟨?_, ?_⟩, ?_, ?_⟩
  · intro htokens n hn
    refine Decidable.byContradiction fun hover => ?_
    obtain ⟨e, he⟩ := parse_render_error ⟨n, hn, hover⟩
    obtain ⟨c, hc, -⟩ := tokenize_eq_ok_iff.1 htokens
    rw [he] at hc
    simp at hc
  · intro hrange
    exact tokenize_eq_ok_iff.2 ⟨d.chain, hagain hrange, rfl⟩
  · intro hrange
    rw [evaluate, evaluate, hagain hrange, hparse]
  · intro hover
    obtain ⟨e, he⟩ := parse_render_error hover
    exact ⟨⟨e, by rw [tokenize, he]; rfl⟩, e, by rw [evaluate, he]; rfl⟩

/-- The tokens of a negative zero times a zero are read again. -/
theorem tokenize_render_zeros :
    tokenize "-0 * 0." = .ok [.number (.zero true), .operator .multiply, .number (.zero false)] ∧
    ∃ d : Derivation, Rereads "-0 * 0."
      [.number (.zero true), .operator .multiply, .number (.zero false)] d := by
  have htokens : tokenize "-0 * 0."
      = .ok [.number (.zero true), .operator .multiply, .number (.zero false)] :=
    eq_ok_of_toOption (by decide +kernel)
  exact ⟨htokens, tokenize_render_of_tokenize htokens⟩

/-- Ten to the power of 309 is read as an infinity, whose rendered token is not read again. -/
theorem tokenize_render_infinity :
    tokenize (String.ofList ('1' :: List.replicate 309 '0')) = .ok [.number (.infinite false)] ∧
    ∃ e, tokenize (render [.number (.infinite false)]) = .error e := by
  constructor
  · refine tokenize_eq_ok_iff.2 ⟨⟨.infinite false, []⟩, ?_, rfl⟩
    rw [parse, String.toList_ofList]
    exact eq_ok_of_toOption (by decide +kernel)
  · exact tokenize_render_error (List.mem_singleton_self _) rfl

end Expression

end CalcJournal
