/-
CalcJournal.Proofs.Json.Skipping — values are passed over as a whole.

The values of JSON are given by a grammar over tokens. Passing over one is a matter of the value
alone: either what follows it is left, whatever that is, or a token of the value was not admitted
(`skip_append_or`). Where any token is admitted, any value is passed over.

The grammar has values, elements and members, and each of the three leads from one state to
another; the stack of brackets that were open before is there again behind it.
-/
import CalcJournal.Json.Skip

namespace CalcJournal.Json

/-! ## 1. The grammar -/

/-- What is nested in what. -/
inductive Part where
  | value
  | elements
  | members

/-- A value, or what stands inside brackets that are not empty. -/
inductive IsPart : Part → List Token → Prop
  | scalar {t : Token} (h : t.isScalar = true) : IsPart .value [t]
  | emptyArray : IsPart .value [.openArray, .closeArray]
  | array {ts : List Token} (h : IsPart .elements ts) :
      IsPart .value (.openArray :: (ts ++ [.closeArray]))
  | emptyObject : IsPart .value [.openObject, .closeObject]
  | object {ts : List Token} (h : IsPart .members ts) :
      IsPart .value (.openObject :: (ts ++ [.closeObject]))
  | lastElement {ts : List Token} (h : IsPart .value ts) : IsPart .elements ts
  | element {ts more : List Token} (h : IsPart .value ts) (hmore : IsPart .elements more) :
      IsPart .elements (ts ++ .comma :: more)
  | lastMember {name : Option (List Char)} {ts : List Token} (h : IsPart .value ts) :
      IsPart .members (.string name :: .colon :: ts)
  | member {name : Option (List Char)} {ts more : List Token} (h : IsPart .value ts)
      (hmore : IsPart .members more) :
      IsPart .members (.string name :: .colon :: (ts ++ .comma :: more))

/-- The tokens of one value. -/
def IsValue (ts : List Token) : Prop := IsPart .value ts

/-! ## 2. From state to state -/

section Leads

variable {admits : Nat → Token → Bool}

/-- From one state, tokens lead to another one, unless one of them is not admitted. -/
def Leads (admits : Nat → Token → Bool) (s : List Frame × Due) (ts : List Token)
    (s' : List Frame × Due) : Prop :=
  (∀ rest, skipFrom admits s.1 s.2 (ts ++ rest) = skipFrom admits s'.1 s'.2 rest) ∨
    (∃ depth t, admits depth t = false) ∧ ∀ rest, skipFrom admits s.1 s.2 (ts ++ rest) = none

theorem Leads.trans {s s' s'' : List Frame × Due} {ts us : List Token} (h : Leads admits s ts s')
    (h' : Leads admits s' us s'') : Leads admits s (ts ++ us) s'' := by
  rcases h with h | ⟨hnot, h⟩
  · rcases h' with h' | ⟨hnot, h'⟩
    · exact .inl fun rest => by rw [List.append_assoc, h, h']
    · exact .inr ⟨hnot, fun rest => by rw [List.append_assoc, h, h']⟩
  · exact .inr ⟨hnot, fun rest => by rw [List.append_assoc, h]⟩

/-- A token that is due leads to the next state. -/
theorem leads_token {stack : List Frame} {due : Due} {t : Token} {s' : List Frame × Due}
    (hdue : (stack.isEmpty && due == .separator) = false) (hstep : step stack due t = some s') :
    Leads admits (stack, due) [t] s' := by
  cases hadmits : admits stack.length t with
  | true =>
    refine .inl fun rest => ?_
    simp only [List.cons_append, List.nil_append, skipFrom, hdue, hadmits, hstep,
      Bool.false_eq_true, if_false, if_true]
  | false =>
    refine .inr ⟨⟨_, _, hadmits⟩, fun rest => ?_⟩
    simp only [List.cons_append, List.nil_append, skipFrom, hdue, hadmits, Bool.false_eq_true,
      if_false]

/-- Where a part is due, it leads to where what follows it is due. -/
def Part.Passed (admits : Nat → Token → Bool) (ts : List Token) : Part → Prop
  | .value => ∀ stack due, due = .value ∨ due = .element →
      Leads admits (stack, due) ts (stack, .separator)
  | .elements => ∀ stack due, due = .value ∨ due = .element →
      Leads admits (.array :: stack, due) ts (.array :: stack, .separator)
  | .members => ∀ stack due, due = .name ∨ due = .member →
      Leads admits (.object :: stack, due) ts (.object :: stack, .separator)

theorem step_of_value {due : Due} (hdue : due = .value ∨ due = .element) {t : Token}
    (ht : t ≠ .closeArray) (stack : List Frame) : step stack due t = stepValue stack t := by
  rcases hdue with rfl | rfl
  · rfl
  · unfold step
    split <;> simp_all

theorem stepValue_scalar {t : Token} (h : t.isScalar = true) (stack : List Frame) :
    stepValue stack t = some (stack, .separator) := by
  cases t <;> first | rfl | simp [Token.isScalar] at h

theorem step_name {due : Due} (hdue : due = .name ∨ due = .member) (name : Option (List Char))
    (stack : List Frame) :
    step (.object :: stack) due (.string name) = some (.object :: stack, .colon) := by
  rcases hdue with rfl | rfl <;> rfl

theorem IsPart.passed {part : Part} {ts : List Token} (h : IsPart part ts) :
    part.Passed admits ts := by
  -- a value is due, and its first token is no closing bracket
  have hvalue {due : Due} (hdue : due = .value ∨ due = .element) (stack : List Frame) :
      (stack.isEmpty && due == .separator) = false := by
    rcases hdue with rfl | rfl <;> simp
  have hname {due : Due} (hdue : due = .name ∨ due = .member) (stack : List Frame) :
      ((Frame.object :: stack).isEmpty && due == .separator) = false := rfl
  have hseparator (frame : Frame) (stack : List Frame) :
      ((frame :: stack).isEmpty && Due.separator == .separator) = false := rfl
  induction h with
  | @scalar t h =>
    intro stack due hdue
    have hclose : t ≠ .closeArray := by rintro rfl; simp [Token.isScalar] at h
    exact leads_token (hvalue hdue stack)
      ((step_of_value hdue hclose stack).trans (stepValue_scalar h stack))
  | emptyArray =>
    intro stack due hdue
    exact (leads_token (hvalue hdue stack) (step_of_value hdue (by simp) stack)).trans
      (leads_token (hvalue (.inr rfl) _) rfl)
  | array h ih =>
    intro stack due hdue
    exact (leads_token (hvalue hdue stack) (step_of_value hdue (by simp) stack)).trans
      ((ih stack .element (.inr rfl)).trans (leads_token (hseparator _ _) rfl))
  | emptyObject =>
    intro stack due hdue
    exact (leads_token (hvalue hdue stack) (step_of_value hdue (by simp) stack)).trans
      (leads_token (hname (.inr rfl) _) rfl)
  | object h ih =>
    intro stack due hdue
    exact (leads_token (hvalue hdue stack) (step_of_value hdue (by simp) stack)).trans
      ((ih stack .member (.inr rfl)).trans (leads_token (hseparator _ _) rfl))
  | lastElement h ih =>
    intro stack due hdue
    exact ih (.array :: stack) due hdue
  | element h hmore ih ihmore =>
    intro stack due hdue
    exact (ih (.array :: stack) due hdue).trans
      ((leads_token (hseparator _ _) rfl).trans (ihmore stack .value (.inl rfl)))
  | @lastMember name ts h ih =>
    intro stack due hdue
    exact (leads_token (hname hdue stack) (step_name hdue name stack)).trans
      ((leads_token (by rfl) rfl).trans (ih (.object :: stack) .value (.inl rfl)))
  | @member name ts more h hmore ih ihmore =>
    intro stack due hdue
    exact (leads_token (hname hdue stack) (step_name hdue name stack)).trans
      ((leads_token (by rfl) rfl).trans ((ih (.object :: stack) .value (.inl rfl)).trans
        ((leads_token (hseparator _ _) rfl).trans (ihmore stack .name (.inl rfl)))))

end Leads

/-! ## 3. Values -/

variable {ts : List Token}

theorem skipFrom_separator (admits : Nat → Token → Bool) (rest : List Token) :
    skipFrom admits [] .separator rest = some rest := by
  cases rest <;> rfl

/-- **Passing over a value is a matter of the value alone.** -/
theorem skip_append_or (h : IsValue ts) (admits : Nat → Token → Bool) :
    (∀ rest, skip admits (ts ++ rest) = some rest) ∨
      (∃ depth t, admits depth t = false) ∧ ∀ rest, skip admits (ts ++ rest) = none := by
  rcases @IsPart.passed admits .value ts h [] .value (.inl rfl) with hpass | hfail
  · exact .inl fun rest => (hpass rest).trans (skipFrom_separator admits rest)
  · exact .inr hfail

/-- Any value is passed over that nobody reads. -/
theorem skip_admitsAny (h : IsValue ts) (rest : List Token) :
    skip admitsAny (ts ++ rest) = some rest := by
  rcases skip_append_or h admitsAny with hpass | ⟨⟨depth, t, hnot⟩, -⟩
  · exact hpass rest
  · simp [admitsAny] at hnot

end CalcJournal.Json
