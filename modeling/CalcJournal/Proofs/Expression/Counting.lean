/-
CalcJournal.Proofs.Expression.Counting — the operator characters of an expression.

An expression is filed by its operator characters, and which of them are signs is not looked at.
Of an expression that is read, the chain still knows them: each operator of its steps is one, and
a minus in front of a number stays on as the number's sign bit, whatever the number is rounded
to. So the operator characters of the text are those that the chain's tokens stand for
(`filterMap_ofChar?_of_parse`), in their order, and so are those of the rendered tokens. The
category is that of the chain, and it survives the way through the tokens.
-/
import CalcJournal.Expression.Category
import CalcJournal.Proofs.Expression.Rendering

namespace CalcJournal

open Text Grammar

/-! ## 1. Signs that survive -/

namespace Binary64

@[simp] theorem isNegative_ofRank (negative : Bool) (rank : Nat) :
    (ofRank negative rank).isNegative = negative := by
  unfold ofRank
  split <;> rfl

/-- The sign stays on, whatever the magnitude is rounded to: zero and infinity keep it. -/
@[simp] theorem isNegative_ofDecimal (negative : Bool) (digits places : Nat) :
    (ofDecimal negative digits places).isNegative = negative := by
  rw [ofDecimal, round, isNegative_ofRank]

end Binary64

/-- A written minus is the sign bit of the value. -/
theorem Grammar.Numeral.isNegative_value (n : Numeral) : n.value.isNegative = n.negative := by
  rw [value, Literal.value, Binary64.isNegative_ofDecimal]

/-! ## 2. The operator characters that tokens stand for -/

/-- The operator that the sign of a number writes, if it writes one. -/
def Operator.ofSign : Bool → List Operator
  | true => [.subtract]
  | false => []

theorem Operator.length_ofSign (negative : Bool) :
    (ofSign negative).length = if negative then 1 else 0 := by
  cases negative <;> rfl

/-- The operators that the token's characters write: its own, or the minus of a negative
number. -/
def Token.operators : Token → List Operator
  | .number x => Operator.ofSign x.isNegative
  | .operator op => [op]

namespace Chain

/-- The numbers of the chain, the first one included. -/
def numbers (c : Chain) : List Binary64 := c.first :: c.steps.map Step.operand

/-- The operators that the characters of the chain's tokens write, in order. -/
def operators (c : Chain) : List Operator := c.tokens.flatMap Token.operators

/-- How many operator characters the chain stands for: one for each step, and one for each
number with its sign bit set. -/
def operatorCount (c : Chain) : Nat := c.steps.length + c.numbers.countP Binary64.isNegative

/-- The category of an expression that writes the chain. -/
def category (c : Chain) : Category := Category.ofOperators c.operators

theorem operators_eq (c : Chain) :
    c.operators = Operator.ofSign c.first.isNegative ++
      c.steps.flatMap fun s => s.operator :: Operator.ofSign s.operand.isNegative := by
  simp [operators, tokens, List.flatMap_assoc, Token.operators]

theorem length_operators (c : Chain) : c.operators.length = c.operatorCount := by
  obtain ⟨x, steps⟩ := c
  have hsteps :
      (steps.flatMap fun s => s.operator :: Operator.ofSign s.operand.isNegative).length
        = steps.length + (steps.map Step.operand).countP Binary64.isNegative := by
    induction steps with
    | nil => rfl
    | cons s steps ih =>
      simp only [List.flatMap_cons, List.length_append, List.length_cons, ih,
        Operator.length_ofSign, List.map_cons, List.countP_cons]
      omega
  rw [operators_eq, operatorCount, numbers]
  simp only [List.length_append, hsteps, Operator.length_ofSign, List.countP_cons]
  omega

end Chain

/-! ## 3. The operator characters of a text -/

namespace Operator

theorem filterMap_ofChar?_eq_nil {cs : List Char} (h : ∀ c ∈ cs, isSymbol c = false) :
    cs.filterMap ofChar? = [] := by
  rw [List.filterMap_eq_nil_iff]
  intro c hc
  simpa [isSymbol] using h c hc

theorem countP_isSymbol (cs : List Char) : cs.countP isSymbol = (cs.filterMap ofChar?).length :=
  List.length_filterMap_eq_countP.symm

end Operator

namespace Grammar

theorem Blanks.filterMap_ofChar? (b : Blanks) : b.chars.filterMap Operator.ofChar? = [] :=
  Operator.filterMap_ofChar?_eq_nil fun c hc => isSymbol_of_isBlank (b.blank c hc)

/-- Behind its minus a number has no operator character. -/
theorem Numeral.filterMap_ofChar? (n : Numeral) :
    n.chars.filterMap Operator.ofChar? = Operator.ofSign n.negative := by
  have hrun : n.run.filterMap Operator.ofChar? = [] :=
    Operator.filterMap_ofChar?_eq_nil fun c hc =>
      isSymbol_of_isLiteralChar (n.isLiteralChar_of_mem hc)
  have hminus : Operator.ofChar? '-' = some .subtract := rfl
  rw [Numeral.chars]
  cases n.negative with
  | true => simp [hminus, hrun, Operator.ofSign]
  | false => exact hrun

/-- The operators of an expression and the signs of its numbers are its operator characters. -/
theorem Derivation.filterMap_ofChar? (d : Derivation) :
    d.chars.filterMap Operator.ofChar? = d.chain.operators := by
  have hlink : ∀ l : Link, l.chars.filterMap Operator.ofChar?
      = l.step.operator :: Operator.ofSign l.step.operand.isNegative := by
    intro l
    simp [Link.chars, Link.step, Blanks.filterMap_ofChar?, Numeral.filterMap_ofChar?,
      Numeral.isNegative_value]
  rw [Chain.operators_eq, Derivation.chars, tailChars]
  simp only [List.filterMap_append, List.filterMap_flatMap, hlink, Blanks.filterMap_ofChar?,
    Numeral.filterMap_ofChar?, List.nil_append, List.append_nil, Derivation.chain,
    List.flatMap_map, Numeral.isNegative_value]

end Grammar

namespace Token

/-- A number's text has no operator character but its minus; the words of the numbers that are
not finite have none either. -/
theorem filterMap_ofChar?_chars (t : Token) : t.chars.filterMap Operator.ofChar? = t.operators := by
  have hmagnitude : ∀ rank, (magnitudeChars rank).filterMap Operator.ofChar? = [] := by
    intro rank
    refine Operator.filterMap_ofChar?_eq_nil fun c hc => ?_
    exact isSymbol_of_isLiteralChar ((magnitudeNumeral false rank).isLiteralChar_of_mem hc)
  cases t with
  | operator op => simp [chars, operators]
  | number x =>
    cases x with
    | nan => decide
    | infinite negative => cases negative <;> decide
    | finite negative rank =>
      have hminus : Operator.ofChar? '-' = some .subtract := rfl
      cases negative with
      | false => exact hmagnitude rank
      | true => simp [chars, operators, numberChars, hmagnitude, Binary64.isNegative, hminus,
          Operator.ofSign]

/-- The spaces between rendered tokens are no operator characters. -/
theorem filterMap_ofChar?_renderChars (ts : List Token) :
    (renderChars ts).filterMap Operator.ofChar? = ts.flatMap operators := by
  cases ts with
  | nil => rfl
  | cons t ts =>
    simp only [renderChars_cons, spacedChars, List.filterMap_append, List.filterMap_flatMap,
      Blanks.filterMap_ofChar?, filterMap_ofChar?_chars, List.nil_append, List.flatMap_cons]

end Token

/-! ## 4. The category of an expression -/

namespace Category

theorem ofOperators_eq_other_iff {ops : List Operator} : ofOperators ops = .other ↔ ops = [] := by
  match ops with
  | [] => simp [ofOperators]
  | [op] => cases op <;> simp [ofOperators, single]
  | _ :: _ :: _ => simp [ofOperators]

theorem ofOperators_eq_combine_iff {ops : List Operator} :
    ofOperators ops = .combine ↔ 2 ≤ ops.length := by
  match ops with
  | [] => simp [ofOperators]
  | [op] => cases op <;> simp [ofOperators, single]
  | _ :: _ :: _ => simp [ofOperators]

end Category

/-- A chain that stands for one operator character has one step, or its one number is negative. -/
theorem Chain.operators_of_operatorCount_eq_one {c : Chain} (h : c.operatorCount = 1) :
    (∃ s, c.steps = [s] ∧ c.operators = [s.operator]) ∨
      (c.steps = [] ∧ c.first.isNegative = true ∧ c.operators = [.subtract]) := by
  have hlength := c.length_operators
  rw [h, operators_eq] at hlength
  rw [operators_eq]
  match hsteps : c.steps with
  | [] =>
    refine .inr ⟨rfl, ?_⟩
    cases hsign : c.first.isNegative with
    | false => simp [hsteps, hsign, Operator.ofSign] at hlength
    | true => simp [Operator.ofSign]
  | s :: steps =>
    left
    have hnone : Operator.ofSign c.first.isNegative = [] ∧
        Operator.ofSign s.operand.isNegative = [] ∧ steps = [] := by
      simp only [hsteps, List.flatMap_cons, List.length_append, List.length_cons] at hlength
      refine ⟨List.length_eq_zero_iff.1 (by omega), List.length_eq_zero_iff.1 (by omega), ?_⟩
      cases steps with
      | nil => rfl
      | cons t steps =>
        simp only [List.flatMap_cons, List.length_append, List.length_cons] at hlength
        omega
    obtain ⟨hfirst, hoperand, rfl⟩ := hnone
    exact ⟨s, rfl, by simp [hfirst, hoperand]⟩

namespace Expression

open Token

/-- The operator characters of an expression are those that its chain stands for. -/
theorem filterMap_ofChar?_of_parse {s : String} {c : Chain} (h : parse s = .ok c) :
    s.toList.filterMap Operator.ofChar? = c.operators := by
  obtain ⟨d, hchars, rfl⟩ := derivation_of_parseChars h
  rw [← hchars, d.filterMap_ofChar?]

/-- **An expression is filed by its chain.** Its operator characters are as many as its steps and
its numbers with the sign bit set, so the chain alone decides about its category: none of them
gives `Other`, two or more give `Combine`, and a single one is the operator of the one step or
the sign of the one number. An expression with the same tokens is filed alike, and so are the
rendered tokens, even when they are no expression any more. -/
theorem classify_of_parse {s : String} {c : Chain} (h : parse s = .ok c) :
    s.toList.countP Operator.isSymbol = c.operatorCount ∧
    Category.classify s = c.category ∧
    (Category.classify s = .other ↔ c.operatorCount = 0) ∧
    (Category.classify s = .combine ↔ 2 ≤ c.operatorCount) ∧
    (c.operatorCount = 1 →
      (∃ step, c.steps = [step] ∧ Category.classify s = Category.single step.operator) ∨
      (c.steps = [] ∧ c.first.isNegative = true ∧ Category.classify s = .subtract)) ∧
    (∀ t, tokenize t = tokenize s → Category.classify t = Category.classify s) ∧
    Category.classify (render c.tokens) = Category.classify s := by
  have hoperators := filterMap_ofChar?_of_parse h
  have hclassify : Category.classify s = c.category := by
    rw [Category.classify, hoperators, Chain.category]
  refine ⟨?_, hclassify, ?_, ?_, ?_, ?_, ?_⟩
  · rw [Operator.countP_isSymbol, hoperators, c.length_operators]
  · rw [hclassify, Chain.category, Category.ofOperators_eq_other_iff, ← c.length_operators,
      List.length_eq_zero_iff]
  · rw [hclassify, Chain.category, Category.ofOperators_eq_combine_iff, c.length_operators]
  · intro hone
    rw [hclassify, Chain.category]
    rcases Chain.operators_of_operatorCount_eq_one hone with
      ⟨step, hsteps, hops⟩ | ⟨hsteps, hsign, hops⟩
    · exact .inl ⟨step, hsteps, by rw [hops]; rfl⟩
    · exact .inr ⟨hsteps, hsign, by rw [hops]; rfl⟩
  · intro t ht
    have htokens : tokenize t = .ok c.tokens := ht.trans (tokenize_eq_ok_iff.2 ⟨c, h, rfl⟩)
    obtain ⟨c', hparse, hsame⟩ := tokenize_eq_ok_iff.1 htokens
    rw [hclassify, Category.classify, filterMap_ofChar?_of_parse hparse, Chain.category,
      Chain.operators, Chain.operators, hsame]
  · rw [hclassify, Category.classify, render, String.toList_ofList, filterMap_ofChar?_renderChars,
      Chain.category, Chain.operators]

/-- A negative zero is filed as a difference, although there is nothing to subtract. -/
theorem classify_negative_zero :
    parse "-0" = .ok ⟨.zero true, []⟩ ∧ Category.classify "-0" = .subtract ∧
    "-0".toList.countP Operator.isSymbol = Chain.operatorCount ⟨.zero true, []⟩ := by
  have hparse : parse "-0" = .ok ⟨.zero true, []⟩ := eq_ok_of_toOption (by decide +kernel)
  have hclassify := classify_of_parse hparse
  refine ⟨hparse, ?_, hclassify.1⟩
  rcases hclassify.2.2.2.2.1 rfl with ⟨step, hsteps, -⟩ | ⟨-, -, hsubtract⟩
  · simp at hsteps
  · exact hsubtract

end Expression

end CalcJournal
