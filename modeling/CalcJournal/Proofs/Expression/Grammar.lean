/-
CalcJournal.Proofs.Expression.Grammar — the language of expressions, without its reader.

An expression is spelled

    blank* number (blank* operator blank* number)* blank*

where a number is a run of digits and points that holds a digit and no second point,
behind a minus that touches it or none. A `Derivation` is one way to spell an
expression in this grammar; it has the text that it spells (`chars`) and the chain
that it writes (`chain`), with the value of each number and each operator in order.

The main result is `derivation_unique`: no text is spelled in two ways. A minus could
belong to a number or be an operator of its own, and blanks could stand on either side
of what they separate, but what stands in front of a character always decides it.
-/
import CalcJournal.Expression.Chain
import CalcJournal.Expression.Literal
import CalcJournal.Proofs.Text.Digits
import CalcJournal.Proofs.Text.Scanning

namespace CalcJournal.Grammar

open Text

/-! ## 1. The grammar -/

/-- A stretch of blanks, which may be empty. -/
@[ext] structure Blanks where
  chars : List Char
  blank : ∀ c ∈ chars, isBlank c = true

/-- A number as it is spelled. -/
@[ext] structure Numeral where
  negative : Bool
  run : List Char
  digitOrPoint : ∀ c ∈ run, c.isDigit = true ∨ c = '.'
  someDigit : ∃ c ∈ run, c.isDigit = true
  onePoint : run.count '.' ≤ 1

/-- An operator with its number, and the blanks before each of the two. -/
@[ext] structure Link where
  before : Blanks
  operator : Operator
  behind : Blanks
  operand : Numeral

/-- A way to spell an expression. -/
@[ext] structure Derivation where
  lead : Blanks
  first : Numeral
  links : List Link
  trail : Blanks

/-! ## 2. Texts and meanings -/

/-- The text of a number: the minus touches the run. -/
def Numeral.chars (n : Numeral) : List Char := if n.negative then '-' :: n.run else n.run

/-- The value of a number. -/
def Numeral.value (n : Numeral) : Binary64 := Literal.value n.negative n.run

/-- The text of an operator with its number. -/
def Link.chars (l : Link) : List Char :=
  l.before.chars ++ l.operator.symbol :: (l.behind.chars ++ l.operand.chars)

/-- What an operator with its number means. -/
def Link.step (l : Link) : Step := ⟨l.operator, l.operand.value⟩

/-- The text behind the first number. -/
def tailChars (links : List Link) (trail : Blanks) : List Char :=
  links.flatMap Link.chars ++ trail.chars

/-- The text that is spelled. -/
def Derivation.chars (d : Derivation) : List Char :=
  d.lead.chars ++ (d.first.chars ++ tailChars d.links d.trail)

/-- The chain that is written: the values of the numbers and the operators, in order. -/
def Derivation.chain (d : Derivation) : Chain := ⟨d.first.value, d.links.map Link.step⟩

@[simp] theorem tailChars_nil (trail : Blanks) : tailChars [] trail = trail.chars := rfl

@[simp] theorem tailChars_cons (l : Link) (links : List Link) (trail : Blanks) :
    tailChars (l :: links) trail = l.before.chars ++
      l.operator.symbol :: (l.behind.chars ++ (l.operand.chars ++ tailChars links trail)) := by
  simp [tailChars, Link.chars]

/-! ## 3. What stands at the front -/

/-- A symbol is no part of a literal's run and no blank. -/
theorem symbol_stops (op : Operator) :
    Literal.isLiteralChar op.symbol = false ∧ isBlank op.symbol = false := by
  cases op <;> decide

theorem stops_of_isSymbol {c : Char} (h : Operator.isSymbol c = true) :
    Literal.isLiteralChar c = false ∧ isBlank c = false := by
  obtain ⟨op, hop⟩ := Option.isSome_iff_exists.1 h
  rw [← Operator.symbol_of_ofChar? hop]
  exact symbol_stops op

theorem isSymbol_of_isLiteralChar {c : Char} (h : Literal.isLiteralChar c = true) :
    Operator.isSymbol c = false := by
  refine Bool.eq_false_iff.2 fun hsymbol => ?_
  rw [(stops_of_isSymbol hsymbol).1] at h
  simp at h

theorem isSymbol_of_isBlank {c : Char} (h : isBlank c = true) : Operator.isSymbol c = false := by
  refine Bool.eq_false_iff.2 fun hsymbol => ?_
  rw [(stops_of_isSymbol hsymbol).2] at h
  simp at h

theorem isBlank_of_isLiteralChar {c : Char} (hc : Literal.isLiteralChar c = true) :
    isBlank c = false := by
  simp only [Literal.isLiteralChar, Bool.or_eq_true, beq_iff_eq] at hc
  rcases hc with hdigit | rfl
  · exact isBlank_of_isDigit hdigit
  · decide

theorem isLiteralChar_of_isBlank {c : Char} (h : isBlank c = true) :
    Literal.isLiteralChar c = false := by
  cases hc : Literal.isLiteralChar c with
  | false => rfl
  | true => simp [isBlank_of_isLiteralChar hc] at h

theorem Blanks.stops (b : Blanks) : Stops Literal.isLiteralChar b.chars := by
  intro c hc
  exact isLiteralChar_of_isBlank (b.blank c (List.mem_of_mem_head? hc))

/-- Links in front of a text that does not go on with a run do not either. -/
theorem stops_links (links : List Link) {rest : List Char}
    (h : Stops Literal.isLiteralChar rest) :
    Stops Literal.isLiteralChar (links.flatMap Link.chars ++ rest) := by
  cases links with
  | nil => exact h
  | cons l links =>
    rw [List.flatMap_cons, Link.chars]
    cases hb : l.before.chars with
    | nil => exact stops_cons.2 (symbol_stops l.operator).1
    | cons b bs => exact stops_cons.2 (isLiteralChar_of_isBlank (l.before.blank b (by simp [hb])))

/-- What may follow a number does not go on with its run. -/
theorem stops_tailChars (links : List Link) (trail : Blanks) :
    Stops Literal.isLiteralChar (tailChars links trail) :=
  stops_links links trail.stops

theorem Numeral.isLiteralChar_of_mem (n : Numeral) {c : Char} (h : c ∈ n.run) :
    Literal.isLiteralChar c = true := by
  rcases n.digitOrPoint c h with hd | rfl
  · simp [Literal.isLiteralChar, hd]
  · rfl

theorem Numeral.run_ne_nil (n : Numeral) : n.run ≠ [] := by
  obtain ⟨c, hc, -⟩ := n.someDigit
  exact List.ne_nil_of_mem hc

/-- A number starts with a character that is no blank. -/
theorem Numeral.stops_append (n : Numeral) (rest : List Char) :
    Stops isBlank (n.chars ++ rest) := by
  unfold Numeral.chars
  cases n.negative with
  | true => simpa using (by decide : isBlank '-' = false)
  | false =>
    cases hrun : n.run with
    | nil => exact absurd hrun n.run_ne_nil
    | cons c cs =>
      have hc : Literal.isLiteralChar c = true := n.isLiteralChar_of_mem (by simp [hrun])
      simpa using isBlank_of_isLiteralChar hc

/-! ## 4. No text is spelled in two ways -/

/-- A number and what follows it are determined by the text. -/
theorem numeral_unique {n m : Numeral} {t u : List Char}
    (ht : Stops Literal.isLiteralChar t) (hu : Stops Literal.isLiteralChar u)
    (h : n.chars ++ t = m.chars ++ u) : n = m ∧ t = u := by
  have minus_notMem : ∀ k : Numeral, '-' ∉ k.run := fun k hk =>
    absurd (k.isLiteralChar_of_mem hk) (by decide)
  have key : n.negative = m.negative ∧ n.run ++ t = m.run ++ u := by
    unfold Numeral.chars at h
    cases hn : n.negative <;> cases hm : m.negative <;> simp only [hn, hm] at h
    · exact ⟨rfl, by simpa using h⟩
    · cases hrun : n.run with
      | nil => exact absurd hrun n.run_ne_nil
      | cons c cs =>
        obtain rfl : c = '-' := by simp [hrun] at h; exact h.1
        exact absurd (by simp [hrun]) (minus_notMem n)
    · cases hrun : m.run with
      | nil => exact absurd hrun m.run_ne_nil
      | cons c cs =>
        obtain rfl : '-' = c := by simp [hrun] at h; exact h.1
        exact absurd (by simp [hrun]) (minus_notMem m)
    · exact ⟨rfl, by simpa using h⟩
  obtain ⟨hrun, hrest⟩ := prefix_unique (fun _ => n.isLiteralChar_of_mem)
    (fun _ => m.isLiteralChar_of_mem) ht hu key.2
  exact ⟨Numeral.ext key.1 hrun, hrest⟩

/-- Blanks and a rest that starts with no blank are determined by the text. -/
theorem blanks_unique {b b' : Blanks} {t u : List Char} (ht : Stops isBlank t)
    (hu : Stops isBlank u) (h : b.chars ++ t = b'.chars ++ u) : b = b' ∧ t = u := by
  obtain ⟨hb, hrest⟩ := prefix_unique b.blank b'.blank ht hu h
  exact ⟨Blanks.ext hb, hrest⟩

/-- The links behind the first number are determined by the text. -/
theorem tail_unique : ∀ {links links' : List Link} {trail trail' : Blanks},
    tailChars links trail = tailChars links' trail' → links = links' ∧ trail = trail'
  | [], [], trail, trail', h => ⟨rfl, Blanks.ext (by simpa using h)⟩
  | [], l :: links, trail, trail', h => by
      -- the symbol of the link would be one of the blanks
      have hmem : l.operator.symbol ∈ trail.chars := by
        rw [← tailChars_nil trail, h]; simp
      simpa [(symbol_stops l.operator).2] using trail.blank _ hmem
  | l :: links, [], trail, trail', h => by
      have hmem : l.operator.symbol ∈ trail'.chars := by
        rw [← tailChars_nil trail', ← h]; simp
      simpa [(symbol_stops l.operator).2] using trail'.blank _ hmem
  | l :: links, m :: links', trail, trail', h => by
      rw [tailChars_cons, tailChars_cons] at h
      obtain ⟨hbefore, h⟩ := blanks_unique (by simpa using (symbol_stops _).2)
        (by simpa using (symbol_stops _).2) h
      obtain ⟨hsymbol, h⟩ := List.cons.inj h
      obtain ⟨hbehind, h⟩ := blanks_unique (l.operand.stops_append _)
        (m.operand.stops_append _) h
      obtain ⟨hoperand, h⟩ := numeral_unique (stops_tailChars _ _) (stops_tailChars _ _) h
      have hoperator : l.operator = m.operator := by
        have := congrArg Operator.ofChar? hsymbol
        simpa using this
      obtain ⟨rfl, rfl⟩ := tail_unique h
      exact ⟨by rw [Link.ext hbefore hoperator hbehind hoperand], rfl⟩

/-- **The grammar is unambiguous**: a text is spelled in one way at most. -/
theorem derivation_unique {d e : Derivation} (h : d.chars = e.chars) : d = e := by
  obtain ⟨hlead, h⟩ := blanks_unique (d.first.stops_append _) (e.first.stops_append _) h
  obtain ⟨hfirst, h⟩ := numeral_unique (stops_tailChars _ _) (stops_tailChars _ _) h
  obtain ⟨hlinks, htrail⟩ := tail_unique h
  exact Derivation.ext hlead hfirst hlinks htrail

end CalcJournal.Grammar
