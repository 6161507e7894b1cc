/-
CalcJournal.Proofs.Expression.Respacing — texts that differ in their blanks only.

Blanks tell the parts of an expression apart and mean nothing else: it makes no difference which
blanks they are and how many, only whether there are any. Two texts with the same words between
their blanks (`SameWords`) are read in lockstep. Both cursors stand behind the same characters,
blanks aside, and what is in front of them differs in its blanks only (`Abreast`); one step of the
reader keeps this, or finds the same fault at the same character of both texts. The places of the
fault are different numbers then, because the blanks before it are.
-/
import CalcJournal.Expression.Category
import CalcJournal.Proofs.Expression.Faults

namespace CalcJournal

/-- The same error at another place; that of a blank text has none. -/
def ParseError.placed (place : Nat) : ParseError → ParseError
  | .empty => .empty
  | .unexpectedOperator c _ => .unexpectedOperator c place
  | .missingOperand _ => .missingOperand place
  | .unexpectedNumber _ => .unexpectedNumber place
  | .malformedNumber literal _ => .malformedNumber literal place
  | .invalidCharacter c _ => .invalidCharacter c place

namespace Expression

open Grammar Text

/-! ## 1. Texts with the same words -/

/-- The characters of a text that are no blanks. -/
def ink (cs : List Char) : List Char := cs.filter fun c => !isBlank c

/-- One blank or more, and nothing else. -/
def IsGap (cs : List Char) : Prop := cs ≠ [] ∧ allBlank cs = true

/-- The texts go on with the same characters but for their blanks. Every gap stands for another
gap, and blanks at the end are free. -/
inductive Respaced : List Char → List Char → Prop
  | atEnd {cs ds : List Char} (hcs : allBlank cs = true) (hds : allBlank ds = true) :
      Respaced cs ds
  | keep {c : Char} {cs ds : List Char} (hc : isBlank c = false) (h : Respaced cs ds) :
      Respaced (c :: cs) (c :: ds)
  | replace {gap gap' cs ds : List Char} (hgap : IsGap gap) (hgap' : IsGap gap')
      (h : Respaced cs ds) : Respaced (gap ++ cs) (gap' ++ ds)

/-- The texts have the same words, told apart by blanks of any number and kind, and any blanks or
none before the first and behind the last. -/
def SameWords (cs ds : List Char) : Prop :=
  ∃ lead words lead' words' : List Char, cs = lead ++ words ∧ ds = lead' ++ words' ∧
    allBlank lead = true ∧ allBlank lead' = true ∧ Respaced words words'

theorem ink_append (cs ds : List Char) : ink (cs ++ ds) = ink cs ++ ink ds :=
  List.filter_append ..

theorem ink_of_allBlank {cs : List Char} (h : allBlank cs = true) : ink cs = [] := by
  refine List.filter_eq_nil_iff.2 fun c hc => ?_
  simp [List.all_eq_true.1 h c hc]

theorem ink_of_notBlank {cs : List Char} (h : ∀ c ∈ cs, isBlank c = false) : ink cs = cs := by
  refine List.filter_eq_self.2 fun c hc => ?_
  simp [h c hc]

/-- The operator characters of a text are among those that are no blanks. -/
theorem filterMap_ofChar?_ink (cs : List Char) :
    (ink cs).filterMap Operator.ofChar? = cs.filterMap Operator.ofChar? := by
  induction cs with
  | nil => rfl
  | cons c cs ih =>
    cases hblank : isBlank c with
    | false =>
      have hink : ink (c :: cs) = c :: ink cs := by simp [ink, hblank]
      rw [hink, List.filterMap_cons, List.filterMap_cons, ih]
    | true =>
      have hink : ink (c :: cs) = ink cs := by simp [ink, hblank]
      have hnone : Operator.ofChar? c = none := by
        simpa [Operator.isSymbol] using isSymbol_of_isBlank hblank
      rw [hink, List.filterMap_cons_none hnone, ih]

namespace Respaced

variable {cs ds : List Char}

theorem ink_eq (h : Respaced cs ds) : ink cs = ink ds := by
  induction h with
  | atEnd hcs hds => rw [ink_of_allBlank hcs, ink_of_allBlank hds]
  | @keep c cs ds hc h ih =>
    have hone : ink [c] = [c] := ink_of_notBlank (by simpa using hc)
    rw [← List.singleton_append, ink_append, ih, ← ink_append, List.singleton_append]
  | replace hgap hgap' h ih =>
    rw [ink_append, ink_append, ink_of_allBlank hgap.2, ink_of_allBlank hgap'.2, ih]

theorem symm (h : Respaced cs ds) : Respaced ds cs := by
  induction h with
  | atEnd hcs hds => exact .atEnd hds hcs
  | keep hc h ih => exact .keep hc ih
  | replace hgap hgap' h ih => exact .replace hgap' hgap ih

/-- Behind their blanks, both texts end or both go on with the same character. -/
theorem dropBlanks_cases (h : Respaced cs ds) :
    dropBlanks cs = [] ∧ dropBlanks ds = [] ∨
    ∃ c after after', dropBlanks cs = c :: after ∧ dropBlanks ds = c :: after' ∧
      isBlank c = false ∧ Respaced after after' := by
  induction h with
  | atEnd hcs hds => exact .inl ⟨(dropBlanks_eq_nil_iff _).2 hcs, (dropBlanks_eq_nil_iff _).2 hds⟩
  | keep hc h _ =>
    exact .inr ⟨_, _, _, dropWhile_of_stops (stops_cons.2 hc), dropWhile_of_stops (stops_cons.2 hc),
      hc, h⟩
  | replace hgap hgap' h ih => rwa [dropBlanks_append hgap.2, dropBlanks_append hgap'.2]

/-- A character that is no blank is kept. -/
theorem of_cons {c : Char} (hc : isBlank c = false) (h : Respaced (c :: cs) ds) :
    ∃ rest, ds = c :: rest ∧ Respaced cs rest := by
  generalize htext : c :: cs = text at h
  cases h with
  | atEnd hcs _ =>
    rw [← htext] at hcs
    simp [allBlank, hc] at hcs
  | keep _ h =>
    obtain ⟨rfl, rfl⟩ := List.cons.inj htext
    exact ⟨_, rfl, h⟩
  | @replace gap gap' _ _ hgap _ _ =>
    -- the gap would start with the character
    cases gap with
    | nil => exact absurd rfl hgap.1
    | cons b gap =>
      obtain ⟨rfl, -⟩ := List.cons.inj htext
      have hblank := List.all_eq_true.1 hgap.2 c (by simp)
      rw [hc] at hblank
      simp at hblank

/-- A stretch without blanks is kept. -/
theorem of_append {word : List Char} (hword : ∀ c ∈ word, isBlank c = false)
    (h : Respaced (word ++ cs) ds) : ∃ rest, ds = word ++ rest ∧ Respaced cs rest := by
  induction word generalizing ds with
  | nil => exact ⟨ds, rfl, h⟩
  | cons c word ih =>
    obtain ⟨hc, hrest⟩ := List.forall_mem_cons.1 hword
    obtain ⟨rest, rfl, hwords⟩ := of_cons hc h
    obtain ⟨rest', rfl, hwords'⟩ := ih hrest hwords
    exact ⟨rest', rfl, hwords'⟩

/-- What does not carry on a literal does not with other blanks either. -/
theorem stops (h : Respaced cs ds) (hstops : Stops Literal.isLiteralChar cs) :
    Stops Literal.isLiteralChar ds := by
  have hblank : ∀ {gap : List Char}, allBlank gap = true → Stops Literal.isLiteralChar gap :=
    fun hgap c hc => isLiteralChar_of_isBlank (List.all_eq_true.1 hgap c (List.mem_of_mem_head? hc))
  cases h with
  | atEnd _ hds => exact hblank hds
  | keep _ _ => exact stops_cons.2 (stops_cons.1 hstops)
  | @replace _ gap' _ _ _ hgap' _ =>
    cases gap' with
    | nil => exact absurd rfl hgap'.1
    | cons b gap' => exact stops_cons.2 (stops_cons.1 (hblank hgap'.2))

/-- A literal is kept at full length. -/
theorem literal (h : Respaced cs ds) (hstarts : Literal.starts cs = true) :
    ∃ (negative : Bool) (run after after' : List Char), cs = signed negative run ++ after ∧
      ds = signed negative run ++ after' ∧ FullRun run after ∧ FullRun run after' ∧
      Respaced after after' := by
  obtain ⟨negative, run, after, rfl, hrun⟩ := exists_fullRun hstarts
  have hword : ∀ c ∈ signed negative run, isBlank c = false := by
    have hdigits : ∀ c ∈ run, isBlank c = false := fun c hc =>
      isBlank_of_isLiteralChar (hrun.isLiteralChar c hc)
    cases negative with
    | false => exact hdigits
    | true => exact List.forall_mem_cons.2 ⟨by decide, hdigits⟩
  obtain ⟨after', rfl, hafter⟩ := of_append hword h
  exact ⟨negative, run, after, after', rfl, rfl, hrun,
    ⟨hrun.ne_nil, hrun.isLiteralChar, hafter.stops hrun.stops⟩, hafter⟩

theorem starts_eq (h : Respaced cs ds) : Literal.starts cs = Literal.starts ds := by
  have himp : ∀ {cs ds : List Char}, Respaced cs ds → Literal.starts cs = true →
      Literal.starts ds = true := by
    intro cs ds h hstarts
    obtain ⟨negative, run, after, after', -, rfl, -, hrun, -⟩ := h.literal hstarts
    exact starts_signed hrun
  exact Bool.eq_iff_iff.2 ⟨himp h, himp h.symm⟩

end Respaced

/-! ## 2. Places of the same character -/

/-- At the two places the same character stands, behind the same characters but for blanks. -/
def SameCharacter (s t : List Char) (place place' : Nat) : Prop :=
  ∃ (c : Char) (before after before' after' : List Char),
    Cut s place before (c :: after) ∧ Cut t place' before' (c :: after') ∧
    isBlank c = false ∧ ink before = ink before'

/-- The same error of the same character. -/
inductive SameFault (s t : List Char) : ParseError → ParseError → Prop
  | blank : SameFault s t .empty .empty
  | placed {e : ParseError} {place place' : Nat} (hplace : e.place? = some place)
      (h : SameCharacter s t place place') : SameFault s t e (e.placed place')

/-- Two readings agree: they give values that belong together, or the same fault of the same
character. -/
inductive Agree {α : Type} (s t : List Char) (r : α → α → Prop) :
    Except ParseError α → Except ParseError α → Prop
  | ok {a b : α} (h : r a b) : Agree s t r (.ok a) (.ok b)
  | error {e e' : ParseError} (h : SameFault s t e e') : Agree s t r (.error e) (.error e')

section Agree

variable {α : Type} {s t : List Char} {r : α → α → Prop} {reading : Except ParseError α}

theorem Agree.of_ok {a : α} (h : Agree s t r (.ok a) reading) :
    ∃ b, reading = .ok b ∧ r a b := by
  cases h with
  | ok h => exact ⟨_, rfl, h⟩

theorem Agree.of_error {e : ParseError} (h : Agree s t r (.error e) reading) :
    ∃ e', reading = .error e' ∧ SameFault s t e e' := by
  cases h with
  | error h => exact ⟨_, rfl, h⟩

end Agree

/-- The cursors stand behind the same characters of two texts, and in front of the same ones, but
for blanks. -/
structure Abreast (s t : List Char) (c d : Cursor) : Prop where
  cuts : ∃ before before', Cut s c.offset before c.rest ∧ Cut t d.offset before' d.rest ∧
    ink before = ink before'
  respaced : Respaced c.rest d.rest

namespace Abreast

variable {s t : List Char} {c d : Cursor}

/-- Behind the blanks both texts end, or the same character follows. -/
theorem skipBlanks_cases (h : Abreast s t c d) :
    c.skipBlanks.rest = [] ∧ d.skipBlanks.rest = [] ∨
    ∃ (ch : Char) (offset offset' : Nat) (after after' : List Char),
      c.skipBlanks = ⟨offset, ch :: after⟩ ∧ d.skipBlanks = ⟨offset', ch :: after'⟩ ∧
      isBlank ch = false ∧ Abreast s t ⟨offset, ch :: after⟩ ⟨offset', ch :: after'⟩ := by
  rcases h.respaced.dropBlanks_cases with hend | ⟨ch, after, after', hc, hd, hblank, hrest⟩
  · exact .inl hend
  · have hc : c.skipBlanks.rest = ch :: after := hc
    have hd : d.skipBlanks.rest = ch :: after' := hd
    obtain ⟨before, before', hcut, hcut', hink⟩ := h.cuts
    have hcut := hcut.skipBlanks
    have hcut' := hcut'.skipBlanks
    rw [hc] at hcut
    rw [hd] at hcut'
    refine .inr ⟨ch, _, _, after, after', ?_, ?_, hblank, ⟨_, _, hcut, hcut', ?_⟩,
      .keep hblank hrest⟩
    · rw [← hc]
    · rw [← hd]
    · rw [ink_append, ink_append, ink_of_allBlank (allBlank_blanksOf c.rest),
        ink_of_allBlank (allBlank_blanksOf d.rest), hink]

/-- What is in front of the one cursor behind its blanks is in front of the other one. -/
theorem skipBlanks_of_cons {ch : Char} {after : List Char} (h : Abreast s t c d)
    (hc : c.skipBlanks.rest = ch :: after) :
    ∃ (offset' : Nat) (after' : List Char), d.skipBlanks = ⟨offset', ch :: after'⟩ ∧
      isBlank ch = false ∧
      Abreast s t ⟨c.skipBlanks.offset, ch :: after⟩ ⟨offset', ch :: after'⟩ := by
  rcases h.skipBlanks_cases with ⟨hend, -⟩ | ⟨_, _, offset', _, after', hskip, hd, hblank, hnext⟩
  · simp [hc] at hend
  · simp only [hskip] at hc ⊢
    obtain ⟨rfl, rfl⟩ := List.cons.inj hc
    exact ⟨offset', after', hd, hblank, hnext⟩

/-- Both cursors move over the same stretch. -/
theorem advance {offset offset' : Nat} {word after after' : List Char}
    (h : Abreast s t ⟨offset, word ++ after⟩ ⟨offset', word ++ after'⟩)
    (hrest : Respaced after after') :
    Abreast s t ⟨offset + byteLength word, after⟩ ⟨offset' + byteLength word, after'⟩ := by
  obtain ⟨before, before', hc, hd, hink⟩ := h.cuts
  exact ⟨⟨_, _, hc.advance, hd.advance, by rw [ink_append, ink_append, hink]⟩, hrest⟩

theorem sameCharacter {offset offset' : Nat} {ch : Char} {after after' : List Char}
    (h : Abreast s t ⟨offset, ch :: after⟩ ⟨offset', ch :: after'⟩) (hch : isBlank ch = false) :
    SameCharacter s t offset offset' := by
  obtain ⟨before, before', hc, hd, hink⟩ := h.cuts
  exact ⟨ch, before, after, before', after', hc, hd, hch, hink⟩

/-- Both cursors move over an operator. -/
theorem operator {offset offset' : Nat} {op : Operator} {after after' : List Char}
    (h : Abreast s t ⟨offset, op.symbol :: after⟩ ⟨offset', op.symbol :: after'⟩) :
    Abreast s t ⟨offset + 1, after⟩ ⟨offset' + 1, after'⟩ := by
  obtain ⟨rest, hrest, hrespaced⟩ := h.respaced.of_cons (symbol_stops op).2
  obtain rfl := (List.cons.inj hrest).2
  have hone : byteLength [op.symbol] = 1 := utf8Size_symbol op
  have hmoved := @advance s t offset offset' [op.symbol] after after' h hrespaced
  rwa [hone] at hmoved

end Abreast

/-! ## 3. Reading in lockstep -/

/-- The operators that wait for their number are the same character of both texts; at the start
there are none. -/
inductive SamePending (s t : List Char) : Option Nat → Option Nat → Prop
  | none : SamePending s t none none
  | some {place place' : Nat} (h : SameCharacter s t place place') :
      SamePending s t (some place) (some place')

theorem SamePending.endFault {s t : List Char} {pending pending' : Option Nat}
    (h : SamePending s t pending pending') :
    SameFault s t (endFault pending) (endFault pending') := by
  cases h with
  | none => exact .blank
  | @some place place' h => exact SameFault.placed (e := .missingOperand place) rfl h

section Lockstep

variable {s t : List Char} {c d : Cursor}

/-- A cursor in front of a character that is no blank has no blanks to skip. -/
theorem skipBlanks_eq_skipBlanks {offset : Nat} {ch : Char} {after : List Char}
    (h : c.skipBlanks = ⟨offset, ch :: after⟩) (hblank : isBlank ch = false) :
    c.skipBlanks = Cursor.skipBlanks ⟨offset, ch :: after⟩ :=
  h.trans (skipBlanks_append Blanks.none (stops_cons.2 hblank) offset).symm

/-- In both texts the same number is read, or the same fault is found. -/
theorem agree_readOperand {pending pending' : Option Nat} (h : Abreast s t c d)
    (hpending : SamePending s t pending pending') :
    Agree s t (fun p q => p.1 = q.1 ∧ Abreast s t p.2 q.2) (readOperand pending c)
      (readOperand pending' d) := by
  rcases h.skipBlanks_cases with ⟨hc, hd⟩ | ⟨ch, offset, offset', after, after', hc, hd, hblank, hnext⟩
  · rw [readOperand_of_end hc, readOperand_of_end hd]
    exact .error hpending.endFault
  · rw [readOperand_congr (skipBlanks_eq_skipBlanks hc hblank),
      readOperand_congr (skipBlanks_eq_skipBlanks hd hblank), readOperand_cons hblank,
      readOperand_cons hblank, ← hnext.respaced.starts_eq]
    split
    case isTrue hstarts =>
      obtain ⟨negative, run, rest, rest', htext, htext', hrun, hrun', hrest⟩ :=
        hnext.respaced.literal hstarts
      have hplace := hnext.sameCharacter hblank
      simp only at htext htext'
      rw [htext, htext'] at hnext ⊢
      rw [readLiteral_signed hrun, readLiteral_signed hrun']
      split
      case isTrue => exact .ok ⟨rfl, hnext.advance hrest⟩
      case isFalse => exact .error (SameFault.placed (e := .malformedNumber _ offset) rfl hplace)
    case isFalse =>
      have hplace := hnext.sameCharacter hblank
      split
      case isTrue => exact .error (SameFault.placed (e := .unexpectedOperator ch offset) rfl hplace)
      case isFalse => exact .error (SameFault.placed (e := .invalidCharacter ch offset) rfl hplace)

/-- In both texts the same steps are read, or the same fault is found. The reader is followed from
one operator of the first text to the next. -/
theorem agree_readSteps {done : List Step} (h : Abreast s t c d) :
    Agree s t Eq (readSteps done c) (readSteps done d) := by
  fun_induction readSteps done c generalizing d with
  | case1 done c hend =>
    rcases h.skipBlanks_cases with ⟨-, hd⟩ | ⟨ch, offset, offset', after, after', hc, -⟩
    · rw [readSteps_of_end hd]
      exact .ok rfl
    · simp [hc] at hend
  | case2 done c ch rest hrest op hop e hread =>
    obtain ⟨offset', after', hd, -, hnext⟩ := h.skipBlanks_of_cons hrest
    obtain rfl := Operator.symbol_of_ofChar? hop
    have hplace := hnext.sameCharacter (symbol_stops op).2
    have hoperand := agree_readOperand hnext.operator (.some hplace)
    rw [hread] at hoperand
    obtain ⟨e', hoperand', hfault⟩ := hoperand.of_error
    rw [readSteps_congr (skipBlanks_eq_skipBlanks hd (symbol_stops op).2),
      readSteps_of_operator_error hoperand']
    exact .error hfault
  | case3 done c ch rest hrest op hop x next hread ih =>
    obtain ⟨offset', after', hd, -, hnext⟩ := h.skipBlanks_of_cons hrest
    obtain rfl := Operator.symbol_of_ofChar? hop
    have hplace := hnext.sameCharacter (symbol_stops op).2
    have hoperand := agree_readOperand hnext.operator (.some hplace)
    rw [hread] at hoperand
    obtain ⟨⟨x', next'⟩, hoperand', rfl, hbehind⟩ := hoperand.of_ok
    rw [readSteps_of_operator hd hoperand']
    exact ih hbehind
  | case4 done c ch rest hrest hop hliteral =>
    obtain ⟨offset', after', hd, hblank, hnext⟩ := h.skipBlanks_of_cons hrest
    have hsymbol : Operator.isSymbol ch = false := by simp [Operator.isSymbol, hop]
    rw [readSteps_congr (skipBlanks_eq_skipBlanks hd hblank), readSteps_cons hblank hsymbol,
      if_pos hliteral]
    exact .error (SameFault.placed (e := .unexpectedNumber _) rfl (hnext.sameCharacter hblank))
  | case5 done c ch rest hrest hop hliteral =>
    obtain ⟨offset', after', hd, hblank, hnext⟩ := h.skipBlanks_of_cons hrest
    have hsymbol : Operator.isSymbol ch = false := by simp [Operator.isSymbol, hop]
    rw [readSteps_congr (skipBlanks_eq_skipBlanks hd hblank), readSteps_cons hblank hsymbol,
      if_neg hliteral]
    exact .error (SameFault.placed (e := .invalidCharacter ch _) rfl (hnext.sameCharacter hblank))

end Lockstep

/-- Texts with the same words are read alike: the same chain, or the same fault of the same
character. -/
theorem agree_parseChars {s t : List Char} (h : SameWords s t) :
    Agree s t Eq (parseChars s) (parseChars t) := by
  obtain ⟨lead, words, lead', words', hs, ht, hlead, hlead', hwords⟩ := h
  have hskip : ∀ {front rest : List Char}, allBlank front = true →
      (Cursor.start (front ++ rest)).skipBlanks = Cursor.skipBlanks ⟨byteLength front, rest⟩ := by
    intro front rest hfront
    have := skipBlanks_allBlank_append hfront rest 0
    rwa [Nat.zero_add] at this
  have habreast : Abreast s t ⟨byteLength lead, words⟩ ⟨byteLength lead', words'⟩ :=
    ⟨⟨lead, lead', ⟨hs, rfl⟩, ⟨ht, rfl⟩, by rw [ink_of_allBlank hlead, ink_of_allBlank hlead']⟩,
      hwords⟩
  have hfirst := agree_readOperand habreast .none
  rw [← readOperand_congr (hskip hlead), ← readOperand_congr (hskip hlead'), ← hs, ← ht] at hfirst
  unfold parseChars
  cases hread : readOperand none (Cursor.start s) with
  | error e =>
    rw [hread] at hfirst
    obtain ⟨e', hread', hfault⟩ := hfirst.of_error
    rw [hread']
    exact .error hfault
  | ok p =>
    obtain ⟨x, c⟩ := p
    rw [hread] at hfirst
    obtain ⟨⟨y, d⟩, hread', rfl, hbehind⟩ := hfirst.of_ok
    have hsteps := @agree_readSteps s t c d [] hbehind
    rw [hread']
    dsimp only
    cases hrest : readSteps [] c with
    | error e =>
      rw [hrest] at hsteps
      obtain ⟨e', hrest', hfault⟩ := hsteps.of_error
      rw [hrest']
      exact .error hfault
    | ok steps =>
      rw [hrest] at hsteps
      obtain ⟨steps', hrest', rfl⟩ := hsteps.of_ok
      rw [hrest']
      exact .ok rfl

/-- Texts with the same words have the same characters but for their blanks. -/
theorem SameWords.ink_eq {s t : List Char} (h : SameWords s t) : ink s = ink t := by
  obtain ⟨lead, words, lead', words', rfl, rfl, hlead, hlead', hwords⟩ := h
  rw [ink_append, ink_append, ink_of_allBlank hlead, ink_of_allBlank hlead', hwords.ink_eq]

/-- An expression is filed by the characters that are no blanks. -/
theorem classify_of_ink_eq {s t : String} (h : ink s.toList = ink t.toList) :
    Category.classify s = Category.classify t := by
  rw [Category.classify, Category.classify, ← filterMap_ofChar?_ink, h, filterMap_ofChar?_ink]

end Expression

end CalcJournal
