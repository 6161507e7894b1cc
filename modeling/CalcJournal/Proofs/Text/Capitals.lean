/-
CalcJournal.Proofs.Text.Capitals — words in upper or lower case.

Two words differ in case only if they have the same characters but for capital ASCII letters in
place of small ones, or the other way about. A word in small letters is then what the other one
becomes in small letters, and a word in capitals what it becomes in capitals.
-/

namespace CalcJournal.Text

/-- A letter from `A` to `Z`, and its small form. -/
def IsCapitalOf (c d : Char) : Prop := 'A' ≤ c ∧ c ≤ 'Z' ∧ d.toNat = c.toNat + 32

/-- Characters that differ in the case of an ASCII letter at most. -/
def SameLetter (c d : Char) : Prop := c = d ∨ IsCapitalOf c d ∨ IsCapitalOf d c

/-- Words that differ in the case of ASCII letters only. -/
inductive SameWord : List Char → List Char → Prop
  | nil : SameWord [] []
  | cons {c d : Char} {cs ds : List Char} (h : SameLetter c d) (hrest : SameWord cs ds) :
      SameWord (c :: cs) (d :: ds)

theorem SameWord.refl (cs : List Char) : SameWord cs cs := by
  induction cs with
  | nil => exact .nil
  | cons c cs ih => exact .cons (.inl rfl) ih

/-- Where a letter is the form of the letters that it is the same as, a word is that of words. -/
theorem sameWord_iff_map {f : Char → Char} {cs word : List Char}
    (hf : ∀ d ∈ word, ∀ c, f c = d ↔ SameLetter c d) : SameWord cs word ↔ cs.map f = word := by
  constructor
  · intro h
    induction h with
    | nil => rfl
    | @cons c d cs ds h hrest ih =>
      rw [List.map_cons, (hf d (by simp) c).2 h, ih fun e he => hf e (List.mem_cons_of_mem d he)]
  · rintro rfl
    induction cs with
    | nil => exact .nil
    | cons c cs ih =>
      exact .cons ((hf (f c) (by simp) c).1 rfl) (ih fun e he => hf e (List.mem_cons_of_mem _ he))

/-! ## Small letters -/

theorem toNat_toLower {c : Char} (hlo : 'A' ≤ c) (hhi : c ≤ 'Z') :
    c.toLower.toNat = c.toNat + 32 := by
  have hval : c.toLower.val = c.val + 32 := congrArg Char.val (dif_pos ⟨hlo, hhi⟩)
  have hbound : c.val.toNat ≤ 90 := hhi
  show c.toLower.val.toNat = c.val.toNat + 32
  rw [hval, UInt32.toNat_add]
  exact Nat.mod_eq_of_lt (by show c.val.toNat + 32 < 4294967296; omega)

theorem toLower_eq_self {c : Char} (h : ¬ ('A' ≤ c ∧ c ≤ 'Z')) : c.toLower = c := dif_neg h

/-- A small letter is the small form of the letters that it is the same as. -/
theorem toLower_eq_iff {d : Char} (hd : d.isLower = true) (c : Char) :
    c.toLower = d ↔ SameLetter c d := by
  have hsmall : ¬ d ≤ 'Z' := by
    intro hhi
    have hlow : 97 ≤ d.toNat := of_decide_eq_true ((Bool.and_eq_true _ _).mp hd).1
    have hhigh : d.toNat ≤ 90 := hhi
    omega
  constructor
  · rintro rfl
    by_cases hcapital : 'A' ≤ c ∧ c ≤ 'Z'
    · exact .inr (.inl ⟨hcapital.1, hcapital.2, toNat_toLower hcapital.1 hcapital.2⟩)
    · exact .inl (toLower_eq_self hcapital).symm
  · rintro (rfl | ⟨hlo, hhi, hvalue⟩ | ⟨-, hhi, -⟩)
    · exact toLower_eq_self fun h => hsmall h.2
    · exact Char.toNat_inj.1 ((toNat_toLower hlo hhi).trans hvalue.symm)
    · exact absurd hhi hsmall

/-! ## Capitals -/

theorem toNat_toUpper {c : Char} (hlo : 'a' ≤ c) (hhi : c ≤ 'z') :
    c.toUpper.toNat + 32 = c.toNat := by
  have hupper : c.toUpper = ⟨c.val + ('A'.val - 'a'.val), _⟩ := dif_pos ⟨hlo, hhi⟩
  have hwrap : ('A'.val - 'a'.val).toNat = 4294967264 := by decide
  have hlow : 97 ≤ c.val.toNat := hlo
  have hhigh : c.val.toNat ≤ 122 := hhi
  have hsum : c.toUpper.toNat = (c.val.toNat + 4294967264) % 4294967296 := by
    rw [hupper, ← hwrap, ← UInt32.toNat_add]
    rfl
  have hcode : c.toNat = c.val.toNat := rfl
  omega

theorem toUpper_eq_self {c : Char} (h : ¬ ('a' ≤ c ∧ c ≤ 'z')) : c.toUpper = c := dif_neg h

/-- A capital is the capital form of the letters that it is the same as. -/
theorem toUpper_eq_iff {d : Char} (hd : d.isUpper = true) (c : Char) :
    c.toUpper = d ↔ SameLetter c d := by
  have hlow : 65 ≤ d.toNat := (of_decide_eq_true hd).1
  have hhigh : d.toNat ≤ 90 := (of_decide_eq_true hd).2
  constructor
  · rintro rfl
    by_cases hsmall : 'a' ≤ c ∧ c ≤ 'z'
    · exact .inr (.inr ⟨hlow, hhigh, (toNat_toUpper hsmall.1 hsmall.2).symm⟩)
    · exact .inl (toUpper_eq_self hsmall).symm
  · rintro (rfl | ⟨hlo, -, hvalue⟩ | ⟨-, -, hvalue⟩)
    · refine toUpper_eq_self fun h => ?_
      have : 97 ≤ c.toNat := h.1
      omega
    · have : 65 ≤ c.toNat := hlo
      omega
    · have hlo : 'a' ≤ c := show 97 ≤ c.toNat by omega
      have hhi : c ≤ 'z' := show c.toNat ≤ 122 by omega
      have := toNat_toUpper hlo hhi
      exact Char.toNat_inj.1 (by omega)

end CalcJournal.Text
