/-
CalcJournal.Proofs.Expression.Parsing — the reader accepts exactly the grammar.

`Expression.parse` walks a text with a cursor, decides about a minus by the character
behind it and keeps the steps that it has read. Here its every stage is tied to the
grammar of `Proofs.Expression.Grammar`, in both directions: `readOperand` reads blanks
and a number, `readSteps` reads a list of links and the blanks at the end, and what
`parseChars` answers is the chain of a derivation of the text.

Since a text has one derivation at most, the chain holds the values of its numbers and
its operators in the order in which they are written, each once.
-/
import CalcJournal.Expression.Parser
import CalcJournal.Proofs.Expression.Grammar

namespace CalcJournal.Expression

open Grammar Text

/-! ## 1. Literals -/

theorem isWellFormed_run (n : Numeral) : Literal.isWellFormed n.run = true := by
  obtain ⟨c, hc, hd⟩ := n.someDigit
  simp only [Literal.isWellFormed, Bool.and_eq_true, List.any_eq_true, decide_eq_true_eq]
  exact ⟨⟨c, hc, hd⟩, n.onePoint⟩

/-- The number of a sign and of a run that is well formed. -/
def numeralOf (negative : Bool) (cs : List Char)
    (h : Literal.isWellFormed (Literal.run cs) = true) : Numeral where
  negative := negative
  run := Literal.run cs
  digitOrPoint c hc := by
    have hall := List.all_takeWhile (p := Literal.isLiteralChar) (l := cs)
    have hlit := List.all_eq_true.1 hall c hc
    simpa [Literal.isLiteralChar] using hlit
  someDigit := by
    simp only [Literal.isWellFormed, Bool.and_eq_true, List.any_eq_true] at h
    exact h.1
  onePoint := by
    simp only [Literal.isWellFormed, Bool.and_eq_true, decide_eq_true_eq] at h
    exact h.2

theorem run_append (n : Numeral) {rest : List Char} (h : Stops Literal.isLiteralChar rest) :
    Literal.run (n.run ++ rest) = n.run :=
  takeWhile_prefix (fun _ => n.isLiteralChar_of_mem) h

/-- The run of a number is read, and its value is the number's. -/
theorem readRun_numeral (n : Numeral) {rest : List Char}
    (h : Stops Literal.isLiteralChar rest) (start offset : Nat) :
    readRun n.negative start ⟨offset, n.run ++ rest⟩
      = .ok (n.value, ⟨offset + byteLength n.run, rest⟩) := by
  have hskip : Cursor.skip Literal.isLiteralChar ⟨offset, n.run ++ rest⟩
      = ⟨offset + byteLength n.run, rest⟩ := by
    simp only [Cursor.skip, takeWhile_prefix (fun _ => n.isLiteralChar_of_mem) h,
      dropWhile_prefix (fun _ => n.isLiteralChar_of_mem) h]
  simp only [readRun, run_append n h, isWellFormed_run n, if_true, hskip, Numeral.value]

/-- A run that is read is that of a number, and ends where it cannot go on. -/
theorem numeral_of_readRun {negative : Bool} {start : Nat} {c d : Cursor} {x : Binary64}
    (h : readRun negative start c = .ok (x, d)) :
    ∃ n : Numeral, n.negative = negative ∧ c.rest = n.run ++ d.rest ∧
      Stops Literal.isLiteralChar d.rest ∧ x = n.value := by
  unfold readRun at h
  dsimp only at h
  split at h
  case isFalse => simp at h
  case isTrue hw =>
    obtain ⟨rfl, rfl⟩ := Prod.mk.inj (Except.ok.inj h)
    exact ⟨numeralOf negative c.rest hw, rfl, (Literal.run_append_afterRun c.rest).symm,
      stops_dropWhile _ _, rfl⟩

theorem starts_numeral (n : Numeral) (rest : List Char) :
    Literal.starts (n.chars ++ rest) = true := by
  cases hrun : n.run with
  | nil => exact absurd hrun n.run_ne_nil
  | cons c cs =>
    have hc : Literal.isLiteralChar c = true := n.isLiteralChar_of_mem (by simp [hrun])
    unfold Numeral.chars
    cases n.negative with
    | true => simpa [hrun, Literal.starts] using hc
    | false =>
      have hminus : c ≠ '-' := by rintro rfl; exact absurd hc (by decide)
      simpa [hrun, Literal.starts, hminus] using hc

theorem readLiteral_numeral (n : Numeral) {rest : List Char}
    (h : Stops Literal.isLiteralChar rest) (offset : Nat) :
    readLiteral ⟨offset, n.chars ++ rest⟩
      = .ok (n.value, ⟨offset + byteLength n.chars, rest⟩) := by
  have hread := readRun_numeral n h offset
  unfold Numeral.chars
  cases hneg : n.negative with
  | true =>
    have hminus : byteLength ('-' :: n.run) = 1 + byteLength n.run := rfl
    rw [hneg] at hread
    simp only [if_true, List.cons_append, readLiteral, hread, hminus, Nat.add_assoc]
  | false =>
    rw [hneg] at hread
    cases hrun : n.run with
    | nil => exact absurd hrun n.run_ne_nil
    | cons c cs =>
      have hc : Literal.isLiteralChar c = true := n.isLiteralChar_of_mem (by simp [hrun])
      have hminus : c ≠ '-' := by rintro rfl; exact absurd hc (by decide)
      have hread := hread offset
      rw [hrun] at hread
      simpa [readLiteral, hminus] using hread

theorem numeral_of_readLiteral {c d : Cursor} {x : Binary64}
    (h : readLiteral c = .ok (x, d)) :
    ∃ n : Numeral, c.rest = n.chars ++ d.rest ∧ Stops Literal.isLiteralChar d.rest ∧
      x = n.value := by
  unfold readLiteral at h
  split at h
  case h_1 rest hrest =>
    obtain ⟨n, hneg, hcs, hstop, hx⟩ := numeral_of_readRun h
    refine ⟨n, ?_, hstop, hx⟩
    dsimp only at hcs
    simp [hrest, hcs, Numeral.chars, hneg]
  case h_2 =>
    obtain ⟨n, hneg, hcs, hstop, hx⟩ := numeral_of_readRun h
    exact ⟨n, by simp [hcs, Numeral.chars, hneg], hstop, hx⟩

/-! ## 2. Blanks and numbers -/

/-- The blanks at the front of a text. -/
def blanksOf (cs : List Char) : Blanks where
  chars := cs.takeWhile isBlank
  blank := List.all_eq_true.1 List.all_takeWhile

/-- Blanks are skipped up to what is no blank. -/
theorem skipBlanks_append (b : Blanks) {rest : List Char} (h : Stops isBlank rest)
    (offset : Nat) :
    Cursor.skipBlanks ⟨offset, b.chars ++ rest⟩ = ⟨offset + byteLength b.chars, rest⟩ := by
  simp only [Cursor.skipBlanks, Cursor.skip, takeWhile_prefix b.blank h,
    dropWhile_prefix b.blank h]

/-- A text is the blanks at its front and what is left when they have been skipped. -/
theorem blanksOf_append_skipBlanks (c : Cursor) :
    (blanksOf c.rest).chars ++ c.skipBlanks.rest = c.rest :=
  List.takeWhile_append_dropWhile

theorem byteLength_append (cs ds : List Char) :
    byteLength (cs ++ ds) = byteLength cs + byteLength ds := by
  induction cs with
  | nil => simp [byteLength]
  | cons c cs ih => simp [byteLength, ih, Nat.add_assoc]

theorem utf8Size_symbol (op : Operator) : op.symbol.utf8Size = 1 := by
  cases op <;> rfl

/-- Blanks and a number are read, wherever they stand. -/
theorem readOperand_numeral (pending : Option Nat) (b : Blanks) (n : Numeral)
    {rest : List Char} (h : Stops Literal.isLiteralChar rest) (offset : Nat) :
    readOperand pending ⟨offset, b.chars ++ (n.chars ++ rest)⟩
      = .ok (n.value, ⟨offset + byteLength (b.chars ++ n.chars), rest⟩) := by
  have hskip := skipBlanks_append b (n.stops_append rest) offset
  unfold readOperand
  simp only [hskip]
  split
  case h_1 hnil =>
    have := starts_numeral n rest
    simp [hnil, Literal.starts] at this
  case h_2 =>
    rw [if_pos (starts_numeral n rest), readLiteral_numeral n h, byteLength_append,
      Nat.add_assoc]

/-- What is read where a number is due is blanks and a number. -/
theorem numeral_of_readOperand {pending : Option Nat} {c d : Cursor} {x : Binary64}
    (h : readOperand pending c = .ok (x, d)) :
    ∃ (b : Blanks) (n : Numeral), c.rest = b.chars ++ (n.chars ++ d.rest) ∧
      Stops Literal.isLiteralChar d.rest ∧ x = n.value := by
  unfold readOperand at h
  dsimp only at h
  split at h
  · simp at h
  · split at h
    · obtain ⟨n, hcs, hstop, hx⟩ := numeral_of_readLiteral h
      refine ⟨blanksOf c.rest, n, ?_, hstop, hx⟩
      rw [← hcs, blanksOf_append_skipBlanks]
    · split at h <;> simp at h

/-! ## 3. Links -/

/-- Where only blanks are left, the steps are complete. -/
theorem readSteps_of_end {done : List Step} {c : Cursor} (h : c.skipBlanks.rest = []) :
    readSteps done c = .ok done.reverse := by
  unfold readSteps
  split
  case h_1 => rfl
  case h_2 hrest => rw [h] at hrest; simp at hrest

/-- An operator whose number can be read is one more step. -/
theorem readSteps_of_operator {done : List Step} {c next : Cursor} {op : Operator}
    {offset : Nat} {rest : List Char} {x : Binary64}
    (h : c.skipBlanks = ⟨offset, op.symbol :: rest⟩)
    (hread : readOperand (some offset) ⟨offset + 1, rest⟩ = .ok (x, next)) :
    readSteps done c = readSteps (⟨op, x⟩ :: done) next := by
  rw [readSteps]
  split
  case h_1 hrest => simp [h] at hrest
  case h_2 ch cs hrest =>
    simp only [h] at hrest
    obtain ⟨rfl, rfl⟩ := List.cons.inj hrest
    simp only [Operator.ofChar?_symbol]
    split
    case h_1 e he => simp [h, hread] at he
    case h_2 y d hd =>
      simp only [h, hread] at hd
      obtain ⟨rfl, rfl⟩ := Prod.mk.inj (Except.ok.inj hd)
      rfl

/-- Links are read whatever follows, and their steps are kept, the latest first. -/
theorem readSteps_links (links : List Link) {rest : List Char}
    (h : Stops Literal.isLiteralChar rest) : ∀ (done : List Step) (offset : Nat),
    readSteps done ⟨offset, links.flatMap Link.chars ++ rest⟩
      = readSteps ((links.map Link.step).reverse ++ done)
          ⟨offset + byteLength (links.flatMap Link.chars), rest⟩ := by
  induction links with
  | nil =>
    intro done offset
    rfl
  | cons l links ih =>
    intro done offset
    have hlinks := stops_links links h
    have hchars : (l :: links).flatMap Link.chars ++ rest = l.before.chars ++ l.operator.symbol ::
        (l.behind.chars ++ (l.operand.chars ++ (links.flatMap Link.chars ++ rest))) := by
      simp [Link.chars]
    have hlength : byteLength ((l :: links).flatMap Link.chars)
        = byteLength l.before.chars + 1 + byteLength (l.behind.chars ++ l.operand.chars)
          + byteLength (links.flatMap Link.chars) := by
      simp only [List.flatMap_cons, Link.chars, byteLength_append, byteLength, utf8Size_symbol]
      omega
    have hstops : Stops isBlank (l.operator.symbol ::
        (l.behind.chars ++ (l.operand.chars ++ (links.flatMap Link.chars ++ rest)))) :=
      stops_cons.2 (symbol_stops l.operator).2
    have hskip := skipBlanks_append l.before hstops offset
    rw [hchars, readSteps_of_operator hskip (readOperand_numeral _ l.behind l.operand hlinks _), ih,
      hlength]
    simp only [List.map_cons, List.reverse_cons, List.append_assoc, Nat.add_assoc,
      List.singleton_append, Link.step]

/-- Links are read up to the blanks at the end, and their steps are kept in order. -/
theorem readSteps_tail (links : List Link) (trail : Blanks) (done : List Step) (offset : Nat) :
    readSteps done ⟨offset, tailChars links trail⟩
      = .ok (done.reverse ++ links.map Link.step) := by
  have hskip := skipBlanks_append trail stops_nil (offset + byteLength (links.flatMap Link.chars))
  rw [List.append_nil] at hskip
  rw [tailChars, readSteps_links links trail.stops, readSteps_of_end (by rw [hskip])]
  simp

/-- What is read behind the first number is links and blanks at the end. -/
theorem tail_of_readSteps {done : List Step} {c : Cursor} {steps : List Step}
    (h : readSteps done c = .ok steps) :
    ∃ (links : List Link) (trail : Blanks), c.rest = tailChars links trail ∧
      steps = done.reverse ++ links.map Link.step := by
  fun_induction readSteps done c generalizing steps with
  | case1 done c hrest =>
    refine ⟨[], blanksOf c.rest, ?_, ?_⟩
    · have := blanksOf_append_skipBlanks c
      rw [hrest, List.append_nil] at this
      exact this.symm
    · rw [← Except.ok.inj h]; simp
  | case2 => simp at h
  | case3 done c ch rest hrest op hop x next hread ih =>
    obtain ⟨behind, operand, hcs, -, rfl⟩ := numeral_of_readOperand hread
    obtain ⟨links, trail, hnext, hsteps⟩ := ih h
    refine ⟨⟨blanksOf c.rest, op, behind, operand⟩ :: links, trail, ?_, ?_⟩
    · dsimp only at hcs
      rw [tailChars_cons, ← hnext, ← hcs, Operator.symbol_of_ofChar? hop, ← hrest,
        blanksOf_append_skipBlanks]
    · simp [hsteps, Link.step]
  | case4 => simp at h
  | case5 => simp at h

/-! ## 4. Expressions -/

/-- What is given is given without a fault. -/
theorem eq_ok_of_toOption {ε α : Type} {x : Except ε α} {a : α} (h : x.toOption = some a) :
    x = .ok a := by
  cases x with
  | error e => simp [Except.toOption] at h
  | ok b => rw [← Option.some.inj h]

/-- The text of a derivation is read as the chain that it writes. -/
theorem parseChars_chars (d : Derivation) : parseChars d.chars = .ok d.chain := by
  have hfirst := readOperand_numeral none d.lead d.first (stops_tailChars d.links d.trail) 0
  simp only [parseChars, Cursor.start, Derivation.chars, hfirst, readSteps_tail]
  rfl

/-- A chain that is read is written by a derivation of the text. -/
theorem derivation_of_parseChars {cs : List Char} {c : Chain} (h : parseChars cs = .ok c) :
    ∃ d : Derivation, d.chars = cs ∧ d.chain = c := by
  unfold parseChars at h
  split at h
  · simp at h
  · rename_i first next hfirst
    split at h
    · simp at h
    · rename_i steps hsteps
      obtain ⟨lead, n, hcs, -, rfl⟩ := numeral_of_readOperand hfirst
      obtain ⟨links, trail, hrest, rfl⟩ := tail_of_readSteps hsteps
      refine ⟨⟨lead, n, links, trail⟩, ?_, ?_⟩
      · rw [Derivation.chars, ← hrest, ← hcs]; rfl
      · rw [← Except.ok.inj h]; rfl

/-- Reading a text gives a chain exactly when a derivation of the text writes it. -/
theorem parseChars_eq_ok_iff {cs : List Char} {c : Chain} :
    parseChars cs = .ok c ↔ ∃ d : Derivation, d.chars = cs ∧ d.chain = c := by
  constructor
  · exact derivation_of_parseChars
  · rintro ⟨d, rfl, rfl⟩
    exact parseChars_chars d

/-- **The reader accepts exactly the grammar.** An expression has a chain if and only if
it is spelled in some way, and then it is spelled in that way only; its chain holds the
values of the numbers and the operators in the order of the text. An expression has a
value in the same cases, and it is the fold of the operators from left to right over the
values of the numbers. -/
theorem parse_succeeds_iff_spelled (s : String) :
    ((∃ c, parse s = .ok c) ↔ ∃ d : Derivation, d.chars = s.toList) ∧
    ((∃ x, evaluate s = .ok x) ↔ ∃ d : Derivation, d.chars = s.toList) ∧
    ∀ d : Derivation, d.chars = s.toList →
      (∀ e : Derivation, e.chars = s.toList → e = d) ∧
      parse s = .ok ⟨d.first.value, d.links.map fun l => ⟨l.operator, l.operand.value⟩⟩ ∧
      evaluate s = .ok (d.links.foldl
        (fun total l => l.operator.apply total l.operand.value) d.first.value) := by
  have hparse : ∀ d : Derivation, d.chars = s.toList → parse s = .ok d.chain := by
    intro d hd
    rw [parse, ← hd, parseChars_chars]
  have hspelled : ∀ c, parse s = .ok c → ∃ d : Derivation, d.chars = s.toList := by
    intro c hc
    obtain ⟨d, hd, -⟩ := derivation_of_parseChars hc
    exact ⟨d, hd⟩
  refine ⟨⟨fun ⟨c, hc⟩ => hspelled c hc, fun ⟨d, hd⟩ => ⟨_, hparse d hd⟩⟩, ⟨?_, ?_⟩, ?_⟩
  · rintro ⟨x, hx⟩
    cases hc : parse s with
    | error e => simp [evaluate, hc, Except.map] at hx
    | ok c => exact hspelled c hc
  · rintro ⟨d, hd⟩
    exact ⟨d.chain.reduce, by rw [evaluate, hparse d hd]; rfl⟩
  · intro d hd
    refine ⟨fun e he => derivation_unique (he.trans hd.symm), hparse d hd, ?_⟩
    rw [evaluate, hparse d hd]
    simp [Except.map, Chain.reduce, Derivation.chain, List.foldl_map, Link.step]

end CalcJournal.Expression
