/-
CalcJournal.Proofs.Expression.Spacing — blanks that may be put into an expression or left out.

Between the numbers and the operators of an expression there may be any blanks or none, and these
are all the places at which there may be any: a blank anywhere else is inside a literal
(`InsideLiteral`), where a minus belongs to the digits behind it. So the blanks of an expression
can all be left out, and more can be put in at every other place, and what is written stays the
same. Without its blanks `5 - -3` is `5--3`; its two minus signs are still told apart, because the
first one stands where an operator is due.

Together with `agree_parseChars`, which also covers texts that are no expressions, this is
`blanks_only_separate`.
-/
import CalcJournal.Proofs.Expression.Respacing
import Mathlib.Logic.Relation

namespace CalcJournal

namespace Grammar

open Text

/-! ## 1. Without blanks -/

/-- The link without its blanks. -/
def Link.tight (l : Link) : Link := { l with before := Blanks.none, behind := Blanks.none }

/-- The derivation without its blanks. -/
def Derivation.tight (d : Derivation) : Derivation where
  lead := Blanks.none
  first := d.first
  links := d.links.map Link.tight
  trail := Blanks.none

theorem Derivation.chain_tight (d : Derivation) : d.tight.chain = d.chain := by
  simp [Derivation.chain, Derivation.tight, Link.step, Link.tight]

theorem Blanks.allBlank_chars (b : Blanks) : allBlank b.chars = true :=
  List.all_eq_true.2 b.blank

open Expression

theorem Blanks.ink_chars (b : Blanks) : ink b.chars = [] := ink_of_allBlank b.allBlank_chars

theorem Numeral.ink_chars (n : Numeral) : ink n.chars = n.chars := by
  refine ink_of_notBlank fun c hc => ?_
  have hrun : ∀ c ∈ n.run, isBlank c = false := fun c hc =>
    isBlank_of_isLiteralChar (n.isLiteralChar_of_mem hc)
  unfold Numeral.chars at hc
  split at hc
  · rcases List.mem_cons.1 hc with rfl | hc
    · decide
    · exact hrun c hc
  · exact hrun c hc

theorem Link.ink_chars (l : Link) : ink l.chars = l.tight.chars := by
  have hsymbol : ink [l.operator.symbol] = [l.operator.symbol] :=
    ink_of_notBlank (by simpa using (symbol_stops l.operator).2)
  simp only [Link.chars, Link.tight, Blanks.none, List.nil_append]
  rw [ink_append, l.before.ink_chars, List.nil_append, ← List.singleton_append, ink_append,
    hsymbol, ink_append, l.behind.ink_chars, l.operand.ink_chars, List.nil_append,
    List.singleton_append]

/-- The characters of an expression that are no blanks spell it as well. -/
theorem Derivation.ink_chars (d : Derivation) : ink d.chars = d.tight.chars := by
  have hlinks : ink (d.links.flatMap Link.chars) = (d.links.map Link.tight).flatMap Link.chars := by
    induction d.links with
    | nil => rfl
    | cons l links ih =>
      rw [List.flatMap_cons, ink_append, l.ink_chars, ih, List.map_cons, List.flatMap_cons]
  rw [Derivation.chars, tailChars, ink_append, ink_append, ink_append, d.lead.ink_chars,
    d.first.ink_chars, d.trail.ink_chars, hlinks]
  simp [Derivation.chars, Derivation.tight, tailChars, Blanks.none]

end Grammar

namespace Expression

open Grammar Text

/-! ## 2. More blanks -/

/-- Between the two parts of a text is the inside of a literal that is due there: between its sign
and its run, or between two characters of its run. -/
def InsideLiteral (u v : List Char) : Prop :=
  ∃ before front back after : List Char, u = before ++ front ∧ v = back ++ after ∧
    front ≠ [] ∧ back ≠ [] ∧ Open before ∧ FullLiteral (front ++ back) after

/-- Blanks are put into a text, at a place that is not inside a literal. -/
inductive Loosens : List Char → List Char → Prop
  | insert {u v : List Char} (blanks : List Char) (hblanks : allBlank blanks = true)
      (houtside : ¬ InsideLiteral u v) : Loosens (u ++ v) (u ++ (blanks ++ v))

theorem fullLiteral_numeral (n : Numeral) {after : List Char}
    (h : Stops Literal.isLiteralChar after) : FullLiteral n.chars after :=
  ⟨n.negative, n.run, rfl, n.run_ne_nil, fun _ => n.isLiteralChar_of_mem, h⟩

section Insertion

variable {u v blanks : List Char} (hblanks : allBlank blanks = true)
include hblanks

/-- Blanks can be put among other blanks. -/
theorem exists_blanks {b : Blanks} (h : b.chars = u ++ v) :
    ∃ b' : Blanks, b'.chars = u ++ (blanks ++ v) := by
  have hall := b.allBlank_chars
  rw [h] at hall
  have hmore : allBlank (u ++ (blanks ++ v)) = true := by simp_all [allBlank]
  exact ⟨blanksOfAll hmore, rfl⟩

/-- Where blanks and a number are, blanks can be put among the blanks, or the place for them is
behind the number. -/
theorem exists_blanks_or_behind {front rest : List Char} {b : Blanks} {n : Numeral}
    (hfront : Open front) (hrest : Stops Literal.isLiteralChar rest)
    (h : b.chars ++ (n.chars ++ rest) = u ++ v) (houtside : ¬ InsideLiteral (front ++ u) v) :
    (∃ b' : Blanks, b'.chars ++ (n.chars ++ rest) = u ++ (blanks ++ v)) ∨
    ∃ w, u = b.chars ++ (n.chars ++ w) ∧ rest = w ++ v := by
  rcases List.append_eq_append_iff.1 h with ⟨w, rfl, hw⟩ | ⟨w, hw, rfl⟩
  · rcases List.append_eq_append_iff.1 hw with ⟨w', rfl, rfl⟩ | ⟨w', hw', rfl⟩
    · exact .inr ⟨w', rfl, rfl⟩
    · by_cases hempty : w = []
      · subst hempty
        obtain ⟨b', hb'⟩ := exists_blanks hblanks (b := b) (u := b.chars) (v := []) (by simp)
        refine .inl ⟨b', ?_⟩
        rw [hb']
        simp [hw']
      · by_cases hbehind : w' = []
        · subst hbehind
          rw [List.append_nil] at hw'
          exact .inr ⟨[], by simp [hw'], by simp⟩
        · refine absurd ⟨front ++ b.chars, w, w', rest, by simp, rfl, hempty, hbehind,
            hfront.append_blanks b.allBlank_chars, ?_⟩ houtside
          rw [← hw']
          exact fullLiteral_numeral n hrest
  · obtain ⟨b', hb'⟩ := exists_blanks hblanks hw
    exact .inl ⟨b', by rw [hb']; simp⟩

/-- Behind an expression, blanks can be put among links and the blanks at the end. -/
theorem exists_links {front : List Char} {links : List Link} {trail : Blanks}
    (hfront : Accepted front) (h : tailChars links trail = u ++ v)
    (houtside : ¬ InsideLiteral (front ++ u) v) :
    ∃ (links' : List Link) (trail' : Blanks), tailChars links' trail' = u ++ (blanks ++ v) ∧
      links'.map Link.step = links.map Link.step := by
  induction links generalizing front u with
  | nil =>
    obtain ⟨trail', htrail'⟩ := exists_blanks hblanks h
    exact ⟨[], trail', htrail', rfl⟩
  | cons l links ih =>
    rw [tailChars_cons] at h
    -- in front of the operator, or behind it
    rcases List.append_eq_append_iff.1 h with ⟨w, rfl, hw⟩ | ⟨w, hw, rfl⟩
    · cases w with
      | nil =>
        obtain ⟨b', hb'⟩ := exists_blanks hblanks (b := l.before) (u := l.before.chars) (v := [])
          (by simp)
        refine ⟨{ l with before := b' } :: links, trail, ?_, rfl⟩
        rw [List.nil_append] at hw
        rw [tailChars_cons, hb', ← hw]
        simp
      | cons c w =>
        rw [List.cons_append] at hw
        obtain ⟨rfl, hbehind⟩ := List.cons.inj hw
        have hopen : Open (front ++ (l.before.chars ++ [l.operator.symbol])) := by
          rw [← List.append_assoc]
          exact (hfront.append_blanks l.before.allBlank_chars).append_operator l.operator
        have hfront' : front ++ (l.before.chars ++ l.operator.symbol :: w)
            = front ++ (l.before.chars ++ [l.operator.symbol]) ++ w := by simp
        rw [hfront'] at houtside
        rcases exists_blanks_or_behind hblanks hopen (stops_tailChars links trail) hbehind houtside
          with ⟨b', hb'⟩ | ⟨w', rfl, htail⟩
        · refine ⟨{ l with behind := b' } :: links, trail, ?_, rfl⟩
          rw [tailChars_cons, hb']
          simp
        · have haccepted := (hopen.append_blanks l.behind.allBlank_chars).append_numeral l.operand
          rw [← List.append_assoc, ← List.append_assoc] at houtside
          obtain ⟨links', trail', hchars, hsteps⟩ := ih haccepted htail houtside
          refine ⟨l :: links', trail', ?_, by rw [List.map_cons, hsteps, List.map_cons]⟩
          rw [tailChars_cons, hchars]
          simp
    · obtain ⟨b', hb'⟩ := exists_blanks hblanks hw
      refine ⟨{ l with before := b' } :: links, trail, ?_, rfl⟩
      rw [tailChars_cons, hb']
      simp

/-- Blanks can be put into an expression, and it still writes the same chain. -/
theorem parseChars_insert {c : Chain} (h : parseChars (u ++ v) = .ok c)
    (houtside : ¬ InsideLiteral u v) : parseChars (u ++ (blanks ++ v)) = .ok c := by
  obtain ⟨d, hd, rfl⟩ := derivation_of_parseChars h
  refine parseChars_eq_ok_iff.2 ?_
  have hstart : Open [] := .inl rfl
  rcases exists_blanks_or_behind hblanks hstart (stops_tailChars d.links d.trail) hd houtside with
    ⟨lead, hlead⟩ | ⟨w, rfl, htail⟩
  · exact ⟨{ d with lead := lead }, hlead, rfl⟩
  · have haccepted := (hstart.append_blanks d.lead.allBlank_chars).append_numeral d.first
    rw [List.nil_append] at haccepted
    rw [← List.append_assoc] at houtside
    obtain ⟨links, trail, hchars, hsteps⟩ := exists_links hblanks haccepted htail houtside
    refine ⟨{ d with links := links, trail := trail }, ?_, ?_⟩
    · simp only [Derivation.chars, hchars, List.append_assoc]
    · simp only [Derivation.chain, hsteps]

end Insertion

/-- Blanks that are put in, one place after the other, change no character but blanks. -/
theorem ink_of_loosened {cs ds : List Char} (h : Relation.ReflTransGen Loosens cs ds) :
    ink ds = ink cs := by
  induction h with
  | refl => rfl
  | tail _ hstep ih =>
    rw [← ih]
    cases hstep with
    | insert blanks hblanks _ =>
      rw [ink_append, ink_append, ink_append, ink_of_allBlank hblanks, List.nil_append]

theorem parseChars_of_loosened {cs ds : List Char} {c : Chain} (hcs : parseChars cs = .ok c)
    (h : Relation.ReflTransGen Loosens cs ds) : parseChars ds = .ok c := by
  induction h with
  | refl => exact hcs
  | tail _ hstep ih =>
    cases hstep with
    | insert blanks hblanks houtside => exact parseChars_insert hblanks ih houtside

/-- An expression without its blanks writes the same chain. -/
theorem parseChars_ink {cs : List Char} {c : Chain} (h : parseChars cs = .ok c) :
    parseChars (ink cs) = .ok c := by
  obtain ⟨d, rfl, rfl⟩ := derivation_of_parseChars h
  exact parseChars_eq_ok_iff.2 ⟨d.tight, d.ink_chars.symm, d.chain_tight⟩

/-! ## 3. What blanks are for -/

/-- **Blanks only separate.** Texts with the same words, whatever blanks are between them and
around them, have the same chain or the same fault at the same character, and are filed alike. An
expression can lose all its blanks, and take more at any place that is not inside a literal, and
still writes the same chain, has the same value and is filed alike. -/
theorem blanks_only_separate (s t : String) :
    (SameWords s.toList t.toList →
      (∀ c, parse s = .ok c → parse t = .ok c) ∧
      (∀ e, parse s = .error e →
        ∃ e', parse t = .error e' ∧ SameFault s.toList t.toList e e') ∧
      Category.classify t = Category.classify s) ∧
    ∀ c, parse s = .ok c →
      (t.toList = ink s.toList ∨ Relation.ReflTransGen Loosens s.toList t.toList) →
        parse t = .ok c ∧ evaluate t = evaluate s ∧
        Category.classify t = Category.classify s := by
  constructor
  · intro hwords
    have hagree := agree_parseChars hwords
    refine ⟨fun c hc => ?_, fun e he => ?_, (classify_of_ink_eq hwords.ink_eq).symm⟩
    · rw [← parse, hc] at hagree
      obtain ⟨c', hc', rfl⟩ := hagree.of_ok
      exact hc'
    · rw [← parse, he] at hagree
      exact hagree.of_error
  · intro c hc hchange
    have hink : ink t.toList = ink s.toList := by
      rcases hchange with ht | hloosened
      · rw [ht, ink, ink, List.filter_filter]
        simp
      · exact ink_of_loosened hloosened
    have hparse : parse t = .ok c := by
      rcases hchange with ht | hloosened
      · rw [parse, ht]
        exact parseChars_ink hc
      · exact parseChars_of_loosened hc hloosened
    refine ⟨hparse, ?_, classify_of_ink_eq hink⟩
    rw [evaluate, evaluate, hparse, hc]

/-- A minus in front of a negative number needs no blank, and a character that belongs nowhere is
found behind a wide blank as it is behind a narrow one. -/
theorem blanks_only_separate_minus :
    (∃ c, parse "5 - -3" = .ok c ∧ parse "5--3" = .ok c ∧ c.steps.length = 1) ∧
    parse "2 $" = .error (.invalidCharacter '$' 2) ∧
    ∃ place, parse "2\u2003$" = .error (.invalidCharacter '$' place) ∧
      SameCharacter "2 $".toList "2\u2003$".toList 2 place := by
  have hminus : parse "5 - -3"
      = .ok ⟨Literal.value false ['5'], [⟨.subtract, Literal.value true ['3']⟩]⟩ :=
    eq_ok_of_toOption (by decide +kernel)
  have htight := ((blanks_only_separate "5 - -3" "5--3").2 _ hminus (.inl (by decide))).1
  have hfault : parse "2 $" = .error (.invalidCharacter '$' 2) := by
    refine parseChars_of_describes ⟨['2', ' '], [], ⟨rfl, rfl⟩, .inr ?_, by decide⟩
    exact ⟨⟨Literal.value false ['2'], []⟩, eq_ok_of_toOption (by decide +kernel)⟩
  have hwords : SameWords "2 $".toList "2\u2003$".toList :=
    ⟨[], _, [], _, rfl, rfl, rfl, rfl, .keep rfl (@Respaced.replace [' '] ['\u2003'] _ _
      ⟨by simp, rfl⟩ ⟨by simp, rfl⟩ (.keep rfl (.atEnd rfl rfl)))⟩
  obtain ⟨e', he', hsame⟩ := ((blanks_only_separate "2 $" "2\u2003$").1 hwords).2.1 _ hfault
  refine ⟨⟨_, hminus, htight, rfl⟩, hfault, ?_⟩
  cases hsame with
  | placed hplace hcharacter =>
    obtain rfl := Option.some.inj hplace
    exact ⟨_, he', hcharacter⟩

end Expression

end CalcJournal
