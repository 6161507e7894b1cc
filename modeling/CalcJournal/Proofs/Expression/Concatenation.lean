/-
CalcJournal.Proofs.Expression.Concatenation — an expression, an operator and any text.

What stands behind an expression and an operator is read as it would be on its own. An expression
there adds its steps to those before it, and since nothing binds tighter than anything else its
own steps are applied last and in their order. A fault there is the same fault, further back by
what is in front. Only a blank text is different: on its own it is an empty expression, behind an
operator it leaves the operator without its number.
-/
import CalcJournal.Proofs.Expression.Faults

namespace CalcJournal

/-- The error of the same text behind so many bytes. -/
def ParseError.moved (distance : Nat) : ParseError → ParseError
  | .empty => .empty
  | .unexpectedOperator c place => .unexpectedOperator c (place + distance)
  | .missingOperand place => .missingOperand (place + distance)
  | .unexpectedNumber place => .unexpectedNumber (place + distance)
  | .malformedNumber literal place => .malformedNumber literal (place + distance)
  | .invalidCharacter c place => .invalidCharacter c (place + distance)

namespace Expression

open Grammar Text

/-! ## 1. Faults behind an expression and an operator -/

section Behind

variable {front cs : List Char}

/-- Where a text falls into two, it does so behind another text as well. -/
theorem Cut.behind {place : Nat} {before after : List Char} (h : Cut cs place before after)
    (front : List Char) :
    Cut (front ++ cs) (place + byteLength front) (front ++ before) after := by
  obtain ⟨rfl, rfl⟩ := h
  exact ⟨by rw [List.append_assoc], by rw [byteLength_append, Nat.add_comm]⟩

theorem Accepted.behind (h : Accepted cs) (hfront : Accepted front) (op : Operator) :
    Accepted (front ++ [op.symbol] ++ cs) := by
  rw [List.append_assoc]
  exact hfront.join op h

/-- A number that is due is due behind an expression and an operator as well. -/
theorem Open.behind (h : Open cs) (hfront : Accepted front) (op : Operator) :
    Open (front ++ [op.symbol] ++ cs) := by
  rcases h with hblank | ⟨before, op', blanks, hbefore, hblanks, rfl⟩
  · exact .inr ⟨front, op, cs, hfront, hblank, by simp⟩
  · exact .inr ⟨_, op', blanks, hbefore.behind hfront op, hblanks, by simp⟩

/-- A fault is the same fault behind an expression and an operator, so many bytes further back.
What it says of the text before it is said of that text with the front as well, and the place is
the only thing that changes. -/
theorem Describes.behind {e : ParseError} (h : Describes cs e) (hempty : e ≠ .empty)
    (hfront : Accepted front) (op : Operator) :
    Describes (front ++ [op.symbol] ++ cs) (e.moved (byteLength front + 1)) := by
  rw [← byteLength_append_operator front op]
  cases e with
  | empty => exact absurd rfl hempty
  | missingOperand place =>
    obtain ⟨before, op', blanks, hcut, hbefore, hblanks⟩ := h
    exact ⟨_, op', blanks, hcut.behind _, hbefore.behind hfront op, hblanks⟩
  | unexpectedNumber place =>
    obtain ⟨before, c, after, hcut, hbefore, hlast, hc⟩ := h
    exact ⟨_, c, after, hcut.behind _, hbefore.behind hfront op, getLast?_behind hlast _, hc⟩
  | unexpectedOperator c place =>
    obtain ⟨before, after, hcut, hbefore, hc⟩ := h
    exact ⟨_, after, hcut.behind _, hbefore.behind hfront op, hc⟩
  | invalidCharacter c place =>
    obtain ⟨before, after, hcut, hbefore, hc⟩ := h
    refine ⟨_, after, hcut.behind _, ?_, hc⟩
    rcases hbefore with hopen | haccepted
    · exact .inl (hopen.behind hfront op)
    · exact .inr (haccepted.behind hfront op)
  | malformedNumber literal place =>
    obtain ⟨before, after, hcut, hbefore, hliteral⟩ := h
    exact ⟨_, after, hcut.behind _, hbefore.behind hfront op, hliteral⟩

/-- Blanks leave the operator before them without its number. -/
theorem Describes.of_blank (hblank : allBlank cs = true) (hfront : Accepted front)
    (op : Operator) :
    Describes (front ++ [op.symbol] ++ cs) (.missingOperand (byteLength front)) :=
  ⟨front, op, cs, ⟨by simp, rfl⟩, hfront, hblank⟩

end Behind

/-! ## 2. Steps behind an expression and an operator -/

/-- The steps behind an operator are added to those before it. -/
theorem parseChars_append_operator {front cs : List Char} {c d : Chain}
    (hfront : parseChars front = .ok c) (op : Operator) (hcs : parseChars cs = .ok d) :
    parseChars (front ++ [op.symbol] ++ cs)
      = .ok ⟨c.first, c.steps ++ ⟨op, d.first⟩ :: d.steps⟩ := by
  obtain ⟨df, rfl, rfl⟩ := derivation_of_parseChars hfront
  obtain ⟨dc, rfl, rfl⟩ := derivation_of_parseChars hcs
  refine parseChars_eq_ok_iff.2 ⟨joined df op dc, ?_, chain_joined df op dc⟩
  rw [chars_joined, List.append_assoc, List.singleton_append]

/-- The steps behind an operator are applied to the value before it. -/
theorem reduce_append_operator (c : Chain) (op : Operator) (d : Chain) :
    Chain.reduce ⟨c.first, c.steps ++ ⟨op, d.first⟩ :: d.steps⟩
      = d.steps.foldl (fun total s => s.operator.apply total s.operand)
          (op.apply c.reduce d.first) := by
  simp [Chain.reduce]

/-- **Reading does not look back.** Behind an expression and an operator, an expression adds its
steps, so that its value is never grouped on its own: its steps are applied to what the operator
makes of the value so far and its first number. A blank text leaves the operator without its
number. Any other text has the fault that it has on its own, further back by what is in front. -/
theorem parse_append_operator {a : String} {c : Chain} (ha : parse a = .ok c) (op : Operator)
    (b : String) :
    (∀ d, parse b = .ok d →
      parse (a ++ String.singleton op.symbol ++ b)
        = .ok ⟨c.first, c.steps ++ [⟨op, d.first⟩] ++ d.steps⟩ ∧
      ∃ x, evaluate a = .ok x ∧ evaluate (a ++ String.singleton op.symbol ++ b)
        = .ok (d.steps.foldl (fun total s => s.operator.apply total s.operand)
            (op.apply x d.first))) ∧
    (allBlank b.toList = true →
      parse (a ++ String.singleton op.symbol ++ b) = .error (.missingOperand a.utf8ByteSize) ∧
      evaluate (a ++ String.singleton op.symbol ++ b)
        = .error (.missingOperand a.utf8ByteSize)) ∧
    ∀ e, parse b = .error e → allBlank b.toList = false →
      parse (a ++ String.singleton op.symbol ++ b) = .error (e.moved (a.utf8ByteSize + 1)) ∧
      evaluate (a ++ String.singleton op.symbol ++ b)
        = .error (e.moved (a.utf8ByteSize + 1)) := by
  have hfront : Accepted a.toList := ⟨c, ha⟩
  have hbytes : byteLength a.toList = a.utf8ByteSize := by
    rw [byteLength_eq, String.ofList_toList]
  have hwhole : parse (a ++ String.singleton op.symbol ++ b)
      = parseChars (a.toList ++ [op.symbol] ++ b.toList) := by
    simp [parse]
  have hfault : ∀ e, Describes (a.toList ++ [op.symbol] ++ b.toList) e →
      parse (a ++ String.singleton op.symbol ++ b) = .error e ∧
      evaluate (a ++ String.singleton op.symbol ++ b) = .error e := by
    intro e he
    have hparse := hwhole.trans (parseChars_of_describes he)
    exact ⟨hparse, by rw [evaluate, hparse]; rfl⟩
  refine ⟨?_, ?_, ?_⟩
  · intro d hd
    have hparse := hwhole.trans (parseChars_append_operator ha op hd)
    refine ⟨by rw [hparse, List.append_assoc, List.singleton_append], c.reduce, ?_, ?_⟩
    · rw [evaluate, ha]
      rfl
    · rw [evaluate, hparse, ← reduce_append_operator]
      rfl
  · intro hblank
    rw [← hbytes]
    exact hfault _ (Describes.of_blank hblank hfront op)
  · intro e he hblank
    rw [← hbytes]
    refine hfault _ (Describes.behind (describes_of_parseChars he) ?_ hfront op)
    rintro rfl
    have hempty : allBlank b.toList = true := describes_of_parseChars he
    rw [hempty] at hblank
    simp at hblank

/-- Behind seven and a minus: an expression that starts with a minus of its own, a blank, and a
minus and a point that no number is made of. -/
theorem parse_seven_minus :
    parse "7 " = .ok ⟨Literal.value false ['7'], []⟩ ∧
    parse "7 --3*2" = .ok ⟨Literal.value false ['7'],
      [⟨.subtract, Literal.value true ['3']⟩, ⟨.multiply, Literal.value false ['2']⟩]⟩ ∧
    parse "7 - " = .error (.missingOperand 2) ∧
    parse "7 --." = .error (.malformedNumber "-." 3) := by
  have hseven : parse "7 " = .ok ⟨Literal.value false ['7'], []⟩ :=
    eq_ok_of_toOption (by decide +kernel)
  have hproduct : parse "-3*2"
      = .ok ⟨Literal.value true ['3'], [⟨.multiply, Literal.value false ['2']⟩]⟩ :=
    eq_ok_of_toOption (by decide +kernel)
  have hpoint : parse "-." = .error (.malformedNumber "-." 0) :=
    parseChars_of_describes ⟨[], [], ⟨rfl, rfl⟩, .inl rfl,
      ⟨true, ['.'], rfl, by simp, List.all_eq_true.1 rfl, stops_nil⟩, by simp [HasValue]⟩
  have hwhole : "7 " ++ String.singleton Operator.subtract.symbol ++ "-3*2" = "7 --3*2" ∧
      "7 " ++ String.singleton Operator.subtract.symbol ++ " " = "7 - " ∧
      "7 " ++ String.singleton Operator.subtract.symbol ++ "-." = "7 --." := by decide
  have hsteps := ((parse_append_operator hseven .subtract "-3*2").1 _ hproduct).1
  have hblank := ((parse_append_operator hseven .subtract " ").2.1 rfl).1
  have hfault := ((parse_append_operator hseven .subtract "-.").2.2 _ hpoint rfl).1
  simp only [hwhole.1, List.nil_append, List.singleton_append] at hsteps
  rw [hwhole.2.1] at hblank
  rw [hwhole.2.2] at hfault
  exact ⟨hseven, hsteps, hblank, hfault⟩

end Expression

end CalcJournal
