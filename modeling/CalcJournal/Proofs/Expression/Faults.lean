/-
CalcJournal.Proofs.Expression.Faults — which fault of a text is reported, and where.

A fault is what cannot stand behind a prefix that can be carried on, and its place is the number
of bytes before it. `Describes` says for each error what the text must look like, read off the
text alone: an operator that nothing but blanks follows, a number behind an expression and a
blank, a character that belongs nowhere, a literal that has no value.

The descriptions are exact: a text is rejected with an error if and only if the error describes
it (`parseChars_eq_error_iff`). One direction computes what is read behind the prefix, the other
follows the reader and keeps what has been read accepted. So no text has two faults that could be
reported, and a text that nothing describes is an expression.
-/
import CalcJournal.Proofs.Expression.Prefixes

namespace CalcJournal

/-- The place of a fault, in bytes; a blank text has none. -/
def ParseError.place? : ParseError → Option Nat
  | .empty => none
  | .unexpectedOperator _ place | .missingOperand place | .unexpectedNumber place
  | .malformedNumber _ place | .invalidCharacter _ place => some place

namespace Expression

open Grammar Text

/-! ## 1. Descriptions -/

/-- The text falls into two at a place: so many bytes are before it. -/
def Cut (cs : List Char) (place : Nat) (before after : List Char) : Prop :=
  cs = before ++ after ∧ place = byteLength before

/-- A literal with its sign. -/
def signed (negative : Bool) (run : List Char) : List Char :=
  if negative then '-' :: run else run

/-- A run of digits and points that is not empty and does not go on in the text behind it. -/
structure FullRun (run after : List Char) : Prop where
  ne_nil : run ≠ []
  isLiteralChar : ∀ c ∈ run, Literal.isLiteralChar c = true
  stops : Stops Literal.isLiteralChar after

/-- A literal at full length: a minus or none, and a run at full length. -/
def FullLiteral (literal after : List Char) : Prop :=
  ∃ (negative : Bool) (run : List Char), literal = signed negative run ∧ FullRun run after

/-- The literal has a value: it holds a digit and no second point. -/
def HasValue (literal : List Char) : Prop :=
  (∃ c ∈ literal, c.isDigit = true) ∧ literal.count '.' ≤ 1

/-- What a text looks like for which an error is reported. -/
def Describes (cs : List Char) : ParseError → Prop
  | .empty => allBlank cs = true
  | .missingOperand place => ∃ (before : List Char) (op : Operator) (blanks : List Char),
      Cut cs place before (op.symbol :: blanks) ∧ Accepted before ∧ allBlank blanks = true
  | .unexpectedNumber place => ∃ (before : List Char) (c : Char) (after : List Char),
      Cut cs place before (c :: after) ∧ Accepted before ∧
      (∃ b ∈ before.getLast?, isBlank b = true) ∧ Literal.isLiteralChar c = true
  | .unexpectedOperator c place => ∃ before after : List Char,
      Cut cs place before (c :: after) ∧ Open before ∧ Operator.isSymbol c = true ∧
      ¬ (c = '-' ∧ ∃ d ∈ after.head?, Literal.isLiteralChar d = true)
  | .invalidCharacter c place => ∃ before after : List Char,
      Cut cs place before (c :: after) ∧ (Open before ∨ Accepted before) ∧ isSpelled c = false
  | .malformedNumber literal place => ∃ before after : List Char,
      Cut cs place before (literal.toList ++ after) ∧ Open before ∧
      FullLiteral literal.toList after ∧ ¬ HasValue literal.toList

/-! ## 2. What stands where a number is due -/

theorem starts_cons {c : Char} {cs : List Char} :
    Literal.starts (c :: cs) = true ↔ Literal.isLiteralChar c = true ∨
      c = '-' ∧ ∃ d ∈ cs.head?, Literal.isLiteralChar d = true := by
  by_cases hminus : c = '-'
  · subst hminus
    cases cs with
    | nil => simp [Literal.starts]
    | cons d cs =>
      have hnot : Literal.isLiteralChar '-' = false := by decide
      simp [Literal.starts, hnot]
  · simp [Literal.starts, hminus]

theorem fullRun_run {c : Char} (hc : Literal.isLiteralChar c = true) (cs : List Char) :
    FullRun (Literal.run (c :: cs)) (Literal.afterRun (c :: cs)) := by
  refine ⟨?_, List.all_eq_true.1 List.all_takeWhile, stops_dropWhile _ _⟩
  simp [Literal.run, hc]

/-- What starts a literal is one at full length, and what follows it. -/
theorem exists_fullRun {cs : List Char} (h : Literal.starts cs = true) :
    ∃ (negative : Bool) (run after : List Char), cs = signed negative run ++ after ∧
      FullRun run after := by
  cases cs with
  | nil => simp [Literal.starts] at h
  | cons c cs =>
    rcases starts_cons.1 h with hc | ⟨rfl, d, hd, hliteral⟩
    · exact ⟨false, _, _, (Literal.run_append_afterRun _).symm, fullRun_run hc cs⟩
    · cases cs with
      | nil => simp at hd
      | cons e cs =>
        obtain rfl : e = d := by simpa using hd
        refine ⟨true, Literal.run (e :: cs), Literal.afterRun (e :: cs), ?_,
          fullRun_run hliteral cs⟩
        rw [signed, if_pos rfl, List.cons_append, Literal.run_append_afterRun]

theorem starts_signed {negative : Bool} {run after : List Char} (h : FullRun run after) :
    Literal.starts (signed negative run ++ after) = true := by
  cases run with
  | nil => exact absurd rfl h.ne_nil
  | cons c cs =>
    have hc := h.isLiteralChar c (by simp)
    cases negative with
    | true => exact starts_cons.2 (.inr ⟨rfl, c, by simp, hc⟩)
    | false => exact starts_cons.2 (.inl hc)

theorem hasValue_signed {negative : Bool} {run : List Char} :
    HasValue (signed negative run) ↔ Literal.isWellFormed run = true := by
  have hsign : HasValue ('-' :: run) ↔ HasValue run := by simp [HasValue]
  have hrun : HasValue run ↔ Literal.isWellFormed run = true := by
    simp [HasValue, Literal.isWellFormed]
  cases negative with
  | true => exact hsign.trans hrun
  | false => exact hrun

/-- A literal at full length that has a value is a number. -/
theorem FullLiteral.exists_numeral {literal after : List Char} (h : FullLiteral literal after)
    (hvalue : HasValue literal) : ∃ n : Numeral, n.chars = literal := by
  obtain ⟨negative, run, rfl, hrun⟩ := h
  have hwell := hasValue_signed.1 hvalue
  have hself : Literal.run run = run := by
    have := takeWhile_prefix hrun.isLiteralChar stops_nil
    rwa [List.append_nil] at this
  exact ⟨numeralOf negative run (by rw [hself]; exact hwell), by
    simp [Numeral.chars, numeralOf, hself, signed]⟩

/-- A literal at full length is read, unless it has no value. -/
theorem readLiteral_signed {negative : Bool} {run after : List Char} (h : FullRun run after)
    (offset : Nat) : readLiteral ⟨offset, signed negative run ++ after⟩
      = if Literal.isWellFormed run then
          .ok (Literal.value negative run, ⟨offset + byteLength (signed negative run), after⟩)
        else .error (.malformedNumber (String.ofList (signed negative run)) offset) := by
  have hrun : Literal.run (run ++ after) = run := takeWhile_prefix h.isLiteralChar h.stops
  have hskip : ∀ place, Cursor.skip Literal.isLiteralChar ⟨place, run ++ after⟩
      = ⟨place + byteLength run, after⟩ := by
    intro place
    simp only [Cursor.skip, takeWhile_prefix h.isLiteralChar h.stops,
      dropWhile_prefix h.isLiteralChar h.stops]
  have hread : ∀ place, readRun negative offset ⟨place, run ++ after⟩
      = if Literal.isWellFormed run then
          .ok (Literal.value negative run, ⟨place + byteLength run, after⟩)
        else .error (.malformedNumber (String.ofList (signed negative run)) offset) := by
    intro place
    simp only [readRun, hrun, hskip, signed]
  cases negative with
  | true =>
    have hminus : byteLength ('-' :: run) = 1 + byteLength run := rfl
    simp only [signed, if_true, List.cons_append, readLiteral, hread, hminus, Nat.add_assoc]
  | false =>
    cases run with
    | nil => exact absurd rfl h.ne_nil
    | cons c cs =>
      have hminus : c ≠ '-' := by
        rintro rfl
        exact absurd (h.isLiteralChar '-' (by simp)) (by decide)
      simpa [readLiteral, hminus, signed] using hread offset

/-- The fault of a text that ends where a number is due, behind an operator or at the start. -/
def endFault : Option Nat → ParseError
  | some place => .missingOperand place
  | none => .empty

theorem readOperand_of_end {pending : Option Nat} {c : Cursor} (h : c.skipBlanks.rest = []) :
    readOperand pending c = .error (endFault pending) := by
  cases pending <;> simp only [readOperand, h, endFault]

/-- The first character that is no blank decides what is read. -/
theorem readOperand_cons {pending : Option Nat} {c : Char} (h : isBlank c = false)
    (cs : List Char) (offset : Nat) : readOperand pending ⟨offset, c :: cs⟩
      = if Literal.starts (c :: cs) then readLiteral ⟨offset, c :: cs⟩
        else if Operator.isSymbol c then .error (.unexpectedOperator c offset)
        else .error (.invalidCharacter c offset) := by
  have hskip : Cursor.skipBlanks ⟨offset, c :: cs⟩ = ⟨offset, c :: cs⟩ :=
    skipBlanks_append Blanks.none (stops_cons.2 h) offset
  simp only [readOperand, hskip]

/-- What starts a literal is read as one. -/
theorem readOperand_of_starts {pending : Option Nat} {cs : List Char}
    (h : Literal.starts cs = true) (offset : Nat) :
    readOperand pending ⟨offset, cs⟩ = readLiteral ⟨offset, cs⟩ := by
  cases cs with
  | nil => simp [Literal.starts] at h
  | cons c cs =>
    have hblank : isBlank c = false := by
      rcases starts_cons.1 h with hc | ⟨rfl, -⟩
      · exact isBlank_of_isLiteralChar hc
      · decide
    rw [readOperand_cons hblank, if_pos h]

/-! ## 3. What is described is reported -/

/-- Where an operator is due, anything else is a fault. -/
theorem readSteps_cons {c : Char} (hblank : isBlank c = false)
    (hsymbol : Operator.isSymbol c = false) (done : List Step) (cs : List Char) (offset : Nat) :
    readSteps done ⟨offset, c :: cs⟩
      = if Literal.isLiteralChar c then .error (.unexpectedNumber offset)
        else .error (.invalidCharacter c offset) := by
  have hskip : Cursor.skipBlanks ⟨offset, c :: cs⟩ = ⟨offset, c :: cs⟩ :=
    skipBlanks_append Blanks.none (stops_cons.2 hblank) offset
  have hnone : Operator.ofChar? c = none := by simpa [Operator.isSymbol] using hsymbol
  rw [readSteps]
  split
  case h_1 hrest => simp [hskip] at hrest
  case h_2 ch rest hrest =>
    simp only [hskip] at hrest
    obtain ⟨rfl, rfl⟩ := List.cons.inj hrest
    simp only [hnone, hskip]

theorem isSpelled_eq_false {c : Char} : isSpelled c = false ↔
    isBlank c = false ∧ Literal.isLiteralChar c = false ∧ Operator.isSymbol c = false := by
  simp [isSpelled, and_assoc]

/-- A character that no expression holds starts no literal. -/
theorem not_starts_of_not_isSpelled {c : Char} {cs : List Char} (h : isSpelled c = false) :
    ¬ Literal.starts (c :: cs) = true := by
  obtain ⟨-, hliteral, hsymbol⟩ := isSpelled_eq_false.1 h
  rw [starts_cons, hliteral]
  rintro (hfalse | ⟨rfl, -⟩)
  · simp at hfalse
  · exact absurd hsymbol (by decide)

/-- What is described is reported. -/
theorem parseChars_of_describes {cs : List Char} {e : ParseError} (h : Describes cs e) :
    parseChars cs = .error e := by
  cases e with
  | empty =>
    have hend : (Cursor.start cs).skipBlanks.rest = [] := (dropBlanks_eq_nil_iff cs).2 h
    simp only [parseChars, readOperand_of_end hend, endFault]
  | missingOperand place =>
    obtain ⟨before, op, blanks, ⟨rfl, rfl⟩, hbefore, hblanks⟩ := h
    refine parseChars_of_accepted hbefore (.inl (stops_cons.2 (symbol_stops op).1)) fun done => ?_
    have hend : (Cursor.skipBlanks ⟨byteLength before + 1, blanks⟩).rest = [] :=
      (dropBlanks_eq_nil_iff blanks).2 hblanks
    exact readSteps_of_operator_error (readOperand_of_end hend)
  | unexpectedNumber place =>
    obtain ⟨before, c, after, ⟨rfl, rfl⟩, hbefore, hblank, hc⟩ := h
    refine parseChars_of_accepted hbefore (.inr hblank) fun done => ?_
    rw [readSteps_cons (isBlank_of_isLiteralChar hc) (isSymbol_of_isLiteralChar hc), if_pos hc]
  | unexpectedOperator c place =>
    obtain ⟨before, after, ⟨rfl, rfl⟩, hbefore, hc, hsign⟩ := h
    obtain ⟨hliteral, hblank⟩ := stops_of_isSymbol hc
    refine parseChars_of_open hbefore fun pending => ?_
    rw [readOperand_cons hblank, if_neg (by rw [starts_cons, hliteral]; simpa using hsign),
      if_pos hc]
  | invalidCharacter c place =>
    obtain ⟨before, after, ⟨rfl, rfl⟩, hbefore, hc⟩ := h
    obtain ⟨hblank, hliteral, hsymbol⟩ := isSpelled_eq_false.1 hc
    rcases hbefore with hopen | haccepted
    · refine parseChars_of_open hopen fun pending => ?_
      rw [readOperand_cons hblank, if_neg (not_starts_of_not_isSpelled hc),
        if_neg (by simp [hsymbol])]
    · refine parseChars_of_accepted haccepted (.inl (stops_cons.2 hliteral)) fun done => ?_
      rw [readSteps_cons hblank hsymbol, if_neg (by simp [hliteral])]
  | malformedNumber literal place =>
    obtain ⟨before, after, ⟨rfl, rfl⟩, hbefore, ⟨negative, run, hliteral, hrun⟩, hvalue⟩ := h
    rw [hliteral, hasValue_signed] at hvalue
    refine parseChars_of_open hbefore fun pending => ?_
    rw [hliteral, readOperand_of_starts (starts_signed hrun), readLiteral_signed hrun,
      if_neg hvalue, ← hliteral, String.ofList_toList]

/-! ## 4. What is reported is described -/

section Cuts

variable {cs before after : List Char} {place : Nat}

/-- The place behind one more stretch of characters. -/
theorem Cut.advance {front : List Char} (h : Cut cs place before (front ++ after)) :
    Cut cs (place + byteLength front) (before ++ front) after := by
  obtain ⟨rfl, rfl⟩ := h
  exact ⟨by rw [List.append_assoc], by rw [byteLength_append]⟩

theorem Cut.skipBlanks {c : Cursor} (h : Cut cs c.offset before c.rest) :
    Cut cs c.skipBlanks.offset (before ++ (blanksOf c.rest).chars) c.skipBlanks.rest := by
  rw [← blanksOf_append_skipBlanks c] at h
  exact h.advance

theorem Cut.operator {op : Operator} (h : Cut cs place before (op.symbol :: after)) :
    Cut cs (place + 1) (before ++ [op.symbol]) after := by
  obtain ⟨rfl, rfl⟩ := h
  exact ⟨by simp, (byteLength_append_operator before op).symm⟩

end Cuts

section Reported

variable {cs before : List Char} {c : Cursor} {e : ParseError}

theorem isBlank_of_skipBlanks {ch : Char} {rest : List Char} (h : c.skipBlanks.rest = ch :: rest) :
    isBlank ch = false := by
  have hstops : Stops isBlank c.skipBlanks.rest := stops_dropWhile isBlank c.rest
  rw [h] at hstops
  exact stops_cons.1 hstops

theorem allBlank_blanksOf (cs : List Char) : allBlank (blanksOf cs).chars = true :=
  List.all_eq_true.2 (blanksOf cs).blank

/-- A text ends with a blank when blanks are behind it. -/
theorem exists_last_blank {b : Blanks} (h : b.chars ≠ []) (before : List Char) :
    ∃ c ∈ (before ++ b.chars).getLast?, isBlank c = true := by
  have hlast : isBlank (b.chars.getLast h) = true := b.blank _ (List.getLast_mem h)
  exact getLast?_behind ⟨_, List.getLast?_eq_some_getLast h, hlast⟩ before

/-- A fault where a number is due is described, unless there is nothing but blanks. -/
theorem describes_of_readOperand {pending : Option Nat} (hbefore : Open before)
    (hcs : Cut cs c.offset before c.rest) (h : readOperand pending c = .error e) :
    (allBlank c.rest = true ∧ e = endFault pending) ∨ Describes cs e := by
  have hcut := hcs.skipBlanks
  have hopen := hbefore.append_blanks (allBlank_blanksOf c.rest)
  cases hrest : c.skipBlanks.rest with
  | nil =>
    refine .inl ⟨(dropBlanks_eq_nil_iff c.rest).1 hrest, ?_⟩
    rw [readOperand_of_end hrest] at h
    exact (Except.error.inj h).symm
  | cons ch rest =>
    refine .inr ?_
    have hblank := isBlank_of_skipBlanks hrest
    have hhere : c.skipBlanks = ⟨c.skipBlanks.offset, ch :: rest⟩ := by rw [← hrest]
    have hskip : c.skipBlanks = Cursor.skipBlanks ⟨c.skipBlanks.offset, ch :: rest⟩ :=
      hhere.trans (skipBlanks_append Blanks.none (stops_cons.2 hblank) _).symm
    rw [hrest] at hcut
    rw [readOperand_congr hskip, readOperand_cons hblank] at h
    split at h
    case isTrue hstarts =>
      obtain ⟨negative, run, after, htext, hrun⟩ := exists_fullRun hstarts
      rw [htext] at hcut
      rw [htext, readLiteral_signed hrun] at h
      split at h
      case isTrue => simp at h
      case isFalse hvalue =>
        obtain rfl := Except.error.inj h
        refine ⟨_, after, ?_, hopen, ⟨negative, run, String.toList_ofList, hrun⟩, ?_⟩
        · rw [String.toList_ofList]
          exact hcut
        · rw [String.toList_ofList, hasValue_signed]
          exact hvalue
    case isFalse hstarts =>
      rw [starts_cons, not_or] at hstarts
      split at h
      case isTrue hsymbol =>
        obtain rfl := Except.error.inj h
        exact ⟨_, rest, hcut, hopen, hsymbol, hstarts.2⟩
      case isFalse hsymbol =>
        obtain rfl := Except.error.inj h
        refine ⟨_, rest, hcut, .inl hopen, isSpelled_eq_false.2 ⟨hblank, ?_, ?_⟩⟩
        · simpa using hstarts.1
        · simpa using hsymbol

/-- A number that is read where one is due makes an expression of what is before it. -/
theorem accepted_of_readOperand {pending : Option Nat} {x : Binary64} {d : Cursor}
    (hbefore : Open before) (hcs : Cut cs c.offset before c.rest)
    (h : readOperand pending c = .ok (x, d)) :
    ∃ number, Accepted (before ++ number) ∧ Cut cs d.offset (before ++ number) d.rest ∧
      Stops Literal.isLiteralChar d.rest := by
  obtain ⟨b, n, hrest, hstops, -⟩ := numeral_of_readOperand h
  have hread := readOperand_numeral pending b n hstops c.offset
  rw [← hrest, h] at hread
  obtain ⟨-, hd⟩ := Prod.mk.inj (Except.ok.inj hread)
  refine ⟨b.chars ++ n.chars, ?_, ?_, hstops⟩
  · rw [← List.append_assoc]
    exact (hbefore.append_blanks (List.all_eq_true.2 b.blank)).append_numeral n
  · rw [hrest, ← List.append_assoc] at hcs
    have hcut := hcs.advance
    rw [hd]
    exact hcut

/-- A fault behind an expression is described. The reader is followed from one operator to the
next; what it has read stays an expression, and what is left does not carry on a number. -/
theorem describes_of_readSteps {done : List Step} (hbefore : Accepted before)
    (hcs : Cut cs c.offset before c.rest) (hstops : Stops Literal.isLiteralChar c.rest)
    (h : readSteps done c = .error e) : Describes cs e := by
  have hcut := hcs.skipBlanks
  have haccepted := hbefore.append_blanks (allBlank_blanksOf c.rest)
  fun_induction readSteps done c generalizing before with
  | case1 => simp at h
  | case2 done c ch rest hrest op hop e' hread =>
    obtain rfl := Except.error.inj h
    rw [hrest, ← Operator.symbol_of_ofChar? hop] at hcut
    rcases describes_of_readOperand (haccepted.append_operator op) hcut.operator hread with
      ⟨hblank, rfl⟩ | hdescribes
    · exact ⟨_, op, rest, hcut, haccepted, hblank⟩
    · exact hdescribes
  | case3 done c ch rest hrest op hop x next hread ih =>
    rw [hrest, ← Operator.symbol_of_ofChar? hop] at hcut
    obtain ⟨number, hnumber, hnext, hstop⟩ :=
      accepted_of_readOperand (haccepted.append_operator op) hcut.operator hread
    exact ih hnumber hnext hstop h hnext.skipBlanks (hnumber.append_blanks (allBlank_blanksOf _))
  | case4 done c ch rest hrest hop hliteral =>
    obtain rfl := Except.error.inj h
    rw [hrest] at hcut
    have hblanks : (blanksOf c.rest).chars ≠ [] := by
      intro hnil
      have hsame := blanksOf_append_skipBlanks c
      rw [hnil, hrest, List.nil_append] at hsame
      rw [← hsame, stops_cons, hliteral] at hstops
      simp at hstops
    exact ⟨_, ch, rest, hcut, haccepted, exists_last_blank hblanks _, hliteral⟩
  | case5 done c ch rest hrest hop hliteral =>
    obtain rfl := Except.error.inj h
    rw [hrest] at hcut
    refine ⟨_, rest, hcut, .inr haccepted,
      isSpelled_eq_false.2 ⟨isBlank_of_skipBlanks hrest, ?_, ?_⟩⟩
    · simpa using hliteral
    · simpa [Operator.isSymbol] using hop

/-- What is reported is described. -/
theorem describes_of_parseChars (h : parseChars cs = .error e) : Describes cs e := by
  have hstart : Cut cs (Cursor.start cs).offset [] (Cursor.start cs).rest := ⟨rfl, rfl⟩
  unfold parseChars at h
  split at h
  case h_1 e' hfirst =>
    obtain rfl := Except.error.inj h
    rcases describes_of_readOperand (.inl rfl) hstart hfirst with ⟨hblank, rfl⟩ | hdescribes
    · exact hblank
    · exact hdescribes
  case h_2 x c hfirst =>
    obtain ⟨number, hnumber, hcut, hstops⟩ := accepted_of_readOperand (.inl rfl) hstart hfirst
    split at h
    case h_1 e' hsteps =>
      obtain rfl := Except.error.inj h
      exact describes_of_readSteps hnumber hcut hstops hsteps
    case h_2 => simp at h

end Reported

/-! ## 5. The fault of a text -/

/-- A text is rejected with an error exactly when the error describes it. -/
theorem parseChars_eq_error_iff {cs : List Char} {e : ParseError} :
    parseChars cs = .error e ↔ Describes cs e :=
  ⟨describes_of_parseChars, parseChars_of_describes⟩

/-- A literal has a character at least. -/
theorem FullLiteral.ne_nil {literal after : List Char} (h : FullLiteral literal after) :
    literal ≠ [] := by
  obtain ⟨negative, run, rfl, hrun⟩ := h
  cases negative with
  | true => simp [signed]
  | false => exact hrun.ne_nil

/-- Where a number is due, one makes the text an expression. -/
theorem Open.exists_accepted {cs : List Char} (h : Open cs) : ∃ more, Accepted (cs ++ more) :=
  ⟨_, h.append_numeral (Token.magnitudeNumeral false 0)⟩

theorem Accepted.exists_accepted {cs : List Char} (h : Accepted cs) :
    ∃ more, Accepted (cs ++ more) :=
  ⟨[], by rwa [List.append_nil]⟩

/-- A fault stands at its place, unless it is that of a blank text, and what is before it can be
carried on to an expression. -/
theorem Describes.exists_cut {cs : List Char} {e : ParseError} (h : Describes cs e)
    (hempty : e ≠ .empty) :
    ∃ place before after, e.place? = some place ∧ Cut cs place before after ∧ after ≠ [] ∧
      ∃ more, Accepted (before ++ more) := by
  cases e with
  | empty => exact absurd rfl hempty
  | missingOperand place =>
    obtain ⟨before, op, blanks, hcut, hbefore, -⟩ := h
    exact ⟨place, before, _, rfl, hcut, List.cons_ne_nil _ _, hbefore.exists_accepted⟩
  | unexpectedNumber place =>
    obtain ⟨before, c, after, hcut, hbefore, -⟩ := h
    exact ⟨place, before, _, rfl, hcut, List.cons_ne_nil _ _, hbefore.exists_accepted⟩
  | unexpectedOperator c place =>
    obtain ⟨before, after, hcut, hbefore, -⟩ := h
    exact ⟨place, before, _, rfl, hcut, List.cons_ne_nil _ _, hbefore.exists_accepted⟩
  | invalidCharacter c place =>
    obtain ⟨before, after, hcut, hbefore, -⟩ := h
    refine ⟨place, before, _, rfl, hcut, List.cons_ne_nil _ _, ?_⟩
    rcases hbefore with hopen | haccepted
    · exact hopen.exists_accepted
    · exact haccepted.exists_accepted
  | malformedNumber literal place =>
    obtain ⟨before, after, hcut, hbefore, hliteral, -⟩ := h
    exact ⟨place, before, _, rfl, hcut, List.append_ne_nil_of_left_ne_nil hliteral.ne_nil _,
      hbefore.exists_accepted⟩

/-- A place at which a text falls into two, with something behind it, is the start of a character
of the text. -/
theorem Cut.isValid {s : String} {place : Nat} {before after : List Char}
    (h : Cut s.toList place before after) (hafter : after ≠ []) :
    String.Pos.Raw.IsValid s ⟨place⟩ ∧ place < s.utf8ByteSize := by
  obtain ⟨hs, rfl⟩ := h
  have hsplit : s = String.ofList before ++ String.ofList after := by
    rw [← String.ofList_append, ← hs, String.ofList_toList]
  constructor
  · refine String.Pos.Raw.isValid_iff_exists_append.2 ⟨_, _, hsplit, ?_⟩
    rw [byteLength_eq, String.rawEndPos]
  · rw [hsplit, String.utf8ByteSize_append, byteLength_eq before, ← byteLength_eq after]
    cases after with
    | nil => exact absurd rfl hafter
    | cons c cs =>
      have hpos := c.utf8Size_pos
      rw [byteLength]
      omega

/-- **The fault that is reported is the one that describes the text.** A text is rejected with
an error if and only if the error describes it, and no two errors describe the same text. Unless
the text is blank, the error names the start of a character of it, and nothing before that place
is at fault: something else behind it would have made an expression. A literal that is due, at
full length, with a digit and no second point always has a value: what has been read with it is
an expression. -/
theorem parse_eq_error_iff (s : String) :
    (∀ e, parse s = .error e ↔ Describes s.toList e) ∧
    (∀ e e', Describes s.toList e → Describes s.toList e' → e = e') ∧
    (∀ e, Describes s.toList e → e ≠ .empty → ∃ place before after, e.place? = some place ∧
      Cut s.toList place before after ∧ (∃ more, Accepted (before ++ more)) ∧
      String.Pos.Raw.IsValid s ⟨place⟩ ∧ place < s.utf8ByteSize) ∧
    ∀ before literal after, s.toList = before ++ (literal ++ after) → Open before →
      FullLiteral literal after → HasValue literal → Accepted (before ++ literal) := by
  refine ⟨fun e => parseChars_eq_error_iff, ?_, ?_, ?_⟩
  · intro e e' he he'
    have hsame := parseChars_of_describes he
    rw [parseChars_of_describes he'] at hsame
    exact (Except.error.inj hsame).symm
  · intro e he hempty
    obtain ⟨place, before, after, hplace, hcut, hafter, hmore⟩ := he.exists_cut hempty
    exact ⟨place, before, after, hplace, hcut, hmore, hcut.isValid hafter⟩
  · intro before literal after hs hbefore hliteral hvalue
    obtain ⟨n, rfl⟩ := hliteral.exists_numeral hvalue
    exact hbefore.append_numeral n

end Expression

end CalcJournal
