/-
CalcJournal.Proofs.Expression.Prefixes — what has been read of a text so far.

A text is carried on from the left for as long as it may become an expression. What has been
read then is `Accepted`, and an operator may follow, or it is `Open`, and a number is due: it is
blank, or an expression with an operator and blanks behind it. Operators, blanks and numbers
lead from the one to the other, and an expression behind an operator is read as it would be on
its own.

What is read behind a prefix depends on the prefix through the number of its bytes alone. So a
fault behind it is the fault of the whole text (`parseChars_of_open`, `parseChars_of_accepted`).
-/
import CalcJournal.Proofs.Expression.Rendering

namespace CalcJournal.Expression

open Grammar Text

/-! ## 1. Prefixes that can be carried on -/

/-- A text that is an expression. -/
def Accepted (cs : List Char) : Prop := ∃ c, parseChars cs = .ok c

/-- A text behind which a number is due: it is blank, or an expression with an operator and
blanks behind it. -/
def Open (cs : List Char) : Prop :=
  allBlank cs = true ∨ ∃ (before : List Char) (op : Operator) (blanks : List Char),
    Accepted before ∧ allBlank blanks = true ∧ cs = before ++ op.symbol :: blanks

theorem accepted_iff {cs : List Char} : Accepted cs ↔ ∃ d : Derivation, d.chars = cs := by
  constructor
  · rintro ⟨c, hc⟩
    obtain ⟨d, hd, -⟩ := derivation_of_parseChars hc
    exact ⟨d, hd⟩
  · rintro ⟨d, rfl⟩
    exact ⟨d.chain, parseChars_chars d⟩

/-- A blank text as a stretch of blanks. -/
def blanksOfAll {cs : List Char} (h : allBlank cs = true) : Blanks := ⟨cs, List.all_eq_true.1 h⟩

/-- Blanks behind an expression belong to it. -/
theorem Accepted.append_blanks {cs blanks : List Char} (h : Accepted cs)
    (hblanks : allBlank blanks = true) : Accepted (cs ++ blanks) := by
  obtain ⟨d, rfl⟩ := accepted_iff.1 h
  have hall : ∀ c ∈ d.trail.chars ++ blanks, isBlank c = true := by
    intro c hc
    rcases List.mem_append.1 hc with hc | hc
    · exact d.trail.blank c hc
    · exact List.all_eq_true.1 hblanks c hc
  refine accepted_iff.2 ⟨{ d with trail := ⟨d.trail.chars ++ blanks, hall⟩ }, ?_⟩
  simp [Derivation.chars, tailChars]

/-- Two derivations with an operator between them. -/
def joined (d : Derivation) (op : Operator) (e : Derivation) : Derivation where
  lead := d.lead
  first := d.first
  links := d.links ++ ⟨d.trail, op, e.lead, e.first⟩ :: e.links
  trail := e.trail

theorem chars_joined (d : Derivation) (op : Operator) (e : Derivation) :
    (joined d op e).chars = d.chars ++ op.symbol :: e.chars := by
  simp [joined, Derivation.chars, tailChars, Link.chars]

theorem chain_joined (d : Derivation) (op : Operator) (e : Derivation) :
    (joined d op e).chain
      = ⟨d.chain.first, d.chain.steps ++ ⟨op, e.chain.first⟩ :: e.chain.steps⟩ := by
  simp [joined, Derivation.chain, Link.step]

/-- Two expressions with an operator between them are one. -/
theorem Accepted.join {cs ds : List Char} (hcs : Accepted cs) (op : Operator)
    (hds : Accepted ds) : Accepted (cs ++ op.symbol :: ds) := by
  obtain ⟨d, rfl⟩ := accepted_iff.1 hcs
  obtain ⟨e, rfl⟩ := accepted_iff.1 hds
  exact accepted_iff.2 ⟨joined d op e, chars_joined d op e⟩

/-- A number is due behind an operator. -/
theorem Accepted.append_operator {cs : List Char} (h : Accepted cs) (op : Operator) :
    Open (cs ++ [op.symbol]) :=
  .inr ⟨cs, op, [], h, rfl, rfl⟩

/-- A number is still due when blanks follow. -/
theorem Open.append_blanks {cs blanks : List Char} (h : Open cs)
    (hblanks : allBlank blanks = true) : Open (cs ++ blanks) := by
  rcases h with hblank | ⟨before, op, behind, hbefore, hbehind, rfl⟩
  · exact .inl (by simp_all [allBlank])
  · refine .inr ⟨before, op, behind ++ blanks, hbefore, ?_, by simp⟩
    simp_all [allBlank]

/-- The number that is due makes an expression. -/
theorem Open.append_numeral {cs : List Char} (h : Open cs) (n : Numeral) :
    Accepted (cs ++ n.chars) := by
  have hnumber : ∀ {blanks : List Char}, allBlank blanks = true →
      Accepted (blanks ++ n.chars) := by
    intro blanks hblanks
    refine accepted_iff.2 ⟨⟨blanksOfAll hblanks, n, [], Blanks.none⟩, ?_⟩
    simp [Derivation.chars, blanksOfAll, Blanks.none]
  rcases h with hblank | ⟨before, op, blanks, hbefore, hblanks, rfl⟩
  · exact hnumber hblank
  · rw [List.append_assoc, List.cons_append]
    exact hbefore.join op (hnumber hblanks)

/-! ## 2. Reading behind a prefix -/

/-- The number of bytes is that of the string. -/
theorem byteLength_eq (cs : List Char) : byteLength cs = (String.ofList cs).utf8ByteSize := by
  induction cs with
  | nil => rfl
  | cons c cs ih =>
    have hcons : String.ofList (c :: cs) = String.singleton c ++ String.ofList cs := by
      rw [← String.toList_inj]
      simp
    rw [hcons, String.utf8ByteSize_append, String.utf8ByteSize_singleton, ← ih, byteLength]

theorem byteLength_append_operator (front : List Char) (op : Operator) :
    byteLength (front ++ [op.symbol]) = byteLength front + 1 := by
  simp only [byteLength_append, byteLength, utf8Size_symbol]

theorem readOperand_congr {pending : Option Nat} {c d : Cursor}
    (h : c.skipBlanks = d.skipBlanks) : readOperand pending c = readOperand pending d := by
  simp only [readOperand, h]

theorem readSteps_congr {done : List Step} {c d : Cursor} (h : c.skipBlanks = d.skipBlanks) :
    readSteps done c = readSteps done d := by
  rw [readSteps, readSteps, h]

/-- Blanks are skipped together with those that follow. -/
theorem skipBlanks_allBlank_append {blanks : List Char} (h : allBlank blanks = true)
    (rest : List Char) (offset : Nat) :
    Cursor.skipBlanks ⟨offset, blanks ++ rest⟩
      = Cursor.skipBlanks ⟨offset + byteLength blanks, rest⟩ := by
  have hblank := List.all_eq_true.1 h
  simp only [Cursor.skipBlanks, Cursor.skip, List.takeWhile_append_of_pos hblank,
    List.dropWhile_append_of_pos hblank, byteLength_append, Nat.add_assoc]

/-- A text that is not empty ends alike behind any other. -/
theorem getLast?_behind {p : Char → Prop} {cs : List Char} (h : ∃ b ∈ cs.getLast?, p b)
    (front : List Char) : ∃ b ∈ (front ++ cs).getLast?, p b := by
  obtain ⟨b, hb, hp⟩ := h
  refine ⟨b, ?_, hp⟩
  rw [List.getLast?_append, Option.mem_def.1 hb]
  rfl

/-- A number does not end with a blank. -/
theorem isBlank_of_mem_getLast? (front : List Char) (n : Numeral) :
    ∀ b ∈ (front ++ n.chars).getLast?, isBlank b = false := by
  intro b hb
  have hrun : ∃ more, front ++ n.chars = more ++ n.run := by
    unfold Numeral.chars
    split
    · exact ⟨front ++ ['-'], by simp⟩
    · exact ⟨front, rfl⟩
  obtain ⟨more, hmore⟩ := hrun
  rw [hmore, List.getLast?_append, List.getLast?_eq_some_getLast n.run_ne_nil] at hb
  obtain rfl : n.run.getLast n.run_ne_nil = b := by simpa using hb
  exact isBlank_of_isLiteralChar (n.isLiteralChar_of_mem (List.getLast_mem n.run_ne_nil))

/-- What ends an expression does not carry on its last number: a blank at its end, or what
follows it. -/
theorem stops_behind {d : Derivation} {rest : List Char}
    (h : Stops Literal.isLiteralChar rest ∨ ∃ b ∈ d.chars.getLast?, isBlank b = true) :
    Stops Literal.isLiteralChar (d.trail.chars ++ rest) := by
  cases htrail : d.trail.chars with
  | cons b blanks =>
    have hblank : isBlank b = true := d.trail.blank b (by simp [htrail])
    exact stops_cons.2 (isLiteralChar_of_isBlank hblank)
  | nil =>
    rcases h with h | ⟨b, hb, hblank⟩
    · exact h
    · -- without blanks at its end, an expression ends with a number
      have hlast : ∃ front n, d.chars = front ++ Numeral.chars n := by
        rcases List.eq_nil_or_concat d.links with hlinks | ⟨links, l, hlinks⟩
        · exact ⟨d.lead.chars, d.first, by simp [Derivation.chars, tailChars, hlinks, htrail]⟩
        · refine ⟨d.lead.chars ++ (d.first.chars ++ (links.flatMap Link.chars ++
            (l.before.chars ++ l.operator.symbol :: l.behind.chars))), l.operand, ?_⟩
          simp [Derivation.chars, tailChars, hlinks, htrail, Link.chars]
      obtain ⟨front, n, hchars⟩ := hlast
      rw [hchars] at hb
      rw [isBlank_of_mem_getLast? front n b hb] at hblank
      simp at hblank

/-- What follows an expression is read behind its steps. -/
theorem parseChars_append (d : Derivation) {rest : List Char}
    (h : Stops Literal.isLiteralChar (d.trail.chars ++ rest)) :
    parseChars (d.chars ++ rest)
      = (readSteps (d.links.map Link.step).reverse ⟨byteLength d.chars, rest⟩).map
          fun steps => ⟨d.first.value, steps⟩ := by
  have hblanks : allBlank d.trail.chars = true := List.all_eq_true.2 d.trail.blank
  have hchars : d.chars ++ rest = d.lead.chars ++
      (d.first.chars ++ (d.links.flatMap Link.chars ++ (d.trail.chars ++ rest))) := by
    simp [Derivation.chars, tailChars]
  have hfirst := readOperand_numeral none d.lead d.first (stops_links d.links h) 0
  have hlength : byteLength d.chars = 0 + byteLength (d.lead.chars ++ d.first.chars)
      + byteLength (d.links.flatMap Link.chars) + byteLength d.trail.chars := by
    simp only [Derivation.chars, tailChars, byteLength_append]
    omega
  rw [hchars, hlength]
  simp only [parseChars, Cursor.start, hfirst, readSteps_links d.links h, List.append_nil,
    readSteps_congr (skipBlanks_allBlank_append hblanks rest _)]
  cases readSteps _ _ <;> rfl

/-- A fault behind an expression is the fault of the whole text, if it does not carry on the
last number. -/
theorem parseChars_of_accepted {before rest : List Char} {e : ParseError}
    (h : Accepted before)
    (hstops : Stops Literal.isLiteralChar rest ∨ ∃ b ∈ before.getLast?, isBlank b = true)
    (hread : ∀ done, readSteps done ⟨byteLength before, rest⟩ = .error e) :
    parseChars (before ++ rest) = .error e := by
  obtain ⟨d, rfl⟩ := accepted_iff.1 h
  rw [parseChars_append d (stops_behind hstops), hread]
  rfl

/-- An operator whose number cannot be read is a fault. -/
theorem readSteps_of_operator_error {done : List Step} {offset : Nat} {op : Operator}
    {rest : List Char} {e : ParseError}
    (hread : readOperand (some offset) ⟨offset + 1, rest⟩ = .error e) :
    readSteps done ⟨offset, op.symbol :: rest⟩ = .error e := by
  have hskip : Cursor.skipBlanks ⟨offset, op.symbol :: rest⟩ = ⟨offset, op.symbol :: rest⟩ :=
    skipBlanks_append Blanks.none (stops_cons.2 (symbol_stops op).2) offset
  rw [readSteps]
  split
  case h_1 hrest => simp [hskip] at hrest
  case h_2 ch cs hrest =>
    simp only [hskip] at hrest
    obtain ⟨rfl, rfl⟩ := List.cons.inj hrest
    simp only [Operator.ofChar?_symbol]
    split
    case h_1 e' he =>
      rw [hskip, hread] at he
      rw [Except.error.inj he]
    case h_2 x next hx =>
      rw [hskip, hread] at hx
      simp at hx

/-- A fault where a number is due is the fault of the whole text. -/
theorem parseChars_of_open {before rest : List Char} {e : ParseError} (h : Open before)
    (hread : ∀ pending, readOperand pending ⟨byteLength before, rest⟩ = .error e) :
    parseChars (before ++ rest) = .error e := by
  rcases h with hblank | ⟨expression, op, blanks, haccepted, hblanks, rfl⟩
  · have hskip := skipBlanks_allBlank_append hblank rest 0
    rw [Nat.zero_add] at hskip
    simp only [parseChars, Cursor.start, readOperand_congr hskip, hread]
  · rw [List.append_assoc, List.cons_append]
    refine parseChars_of_accepted haccepted (.inl (stops_cons.2 (symbol_stops op).1)) ?_
    intro done
    refine readSteps_of_operator_error ?_
    rw [readOperand_congr (skipBlanks_allBlank_append hblanks rest _)]
    have hlength : byteLength (expression ++ op.symbol :: blanks)
        = byteLength expression + 1 + byteLength blanks := by
      simp only [byteLength_append, byteLength, utf8Size_symbol]
      omega
    rw [← hlength, hread]

end CalcJournal.Expression
