/-
CalcJournal.Proofs.Text.Utf8 — a text is read back from its bytes.

The form that is written for a character is the shortest one, and its first byte says how
many bytes belong to it. So the character at the front is found again whatever follows
(`front?_utf8EncodeChar`), and a text in its UTF-8 form falls into its characters, with no
stray byte among them. Conversely bytes that are read as a text are its UTF-8 form
(`decode?_eq_some_iff`).
-/
import CalcJournal.Text.Utf8

namespace CalcJournal.Utf8

/-! ## 1. One character -/

theorem ofCode?_eq {width below code : Nat} {c : Char} (hcode : code = c.toNat)
    (hbelow : below ≤ c.toNat) : ofCode? width below code = some (c, width) := by
  subst hcode
  have hvalid : below ≤ c.toNat ∧ c.toNat.isValidChar := ⟨hbelow, c.valid⟩
  rw [ofCode?, dif_pos hvalid]
  rfl

theorem toNat_tail (n : Nat) : (UInt8.ofNat (n % 0x40 + 0x80)).toNat = n % 0x40 + 0x80 := by
  rw [UInt8.toNat_ofNat']
  omega

theorem isTail_tail (n : Nat) : isTail (UInt8.ofNat (n % 0x40 + 0x80)) = true := by
  simp only [isTail, toNat_tail, Bool.and_eq_true, decide_eq_true_eq]
  omega

/-- The character at the front is the one whose form stands there. -/
theorem front?_utf8EncodeChar (c : Char) (rest : List UInt8) :
    front? (String.utf8EncodeChar c ++ rest) = some (c, (String.utf8EncodeChar c).length) := by
  have hmax : c.toNat < 0x110000 := by
    have := c.valid
    simp only [UInt32.isValidChar, Nat.isValidChar] at this
    show c.val.toNat < 0x110000
    omega
  have hval : c.val.toNat = c.toNat := rfl
  unfold String.utf8EncodeChar
  simp only [hval]
  split
  case isTrue hone =>
    have hn : (UInt8.ofNat c.toNat).toNat = c.toNat := by
      rw [UInt8.toNat_ofNat']
      omega
    simp only [List.cons_append, front?, hn]
    rw [if_pos (by omega)]
    exact ofCode?_eq rfl (Nat.zero_le _)
  split
  case isTrue hone htwo =>
    have hn : (UInt8.ofNat (c.toNat / 64 % 0x20 + 0xc0)).toNat = c.toNat / 64 + 0xc0 := by
      rw [UInt8.toNat_ofNat']
      omega
    simp only [List.cons_append, List.nil_append, front?, hn, toNat_tail, isTail_tail]
    rw [if_neg (by omega), if_pos (by omega), if_pos (by simp)]
    exact ofCode?_eq (by omega) (by omega)
  split
  case isTrue hone htwo hthree =>
    have hn : (UInt8.ofNat (c.toNat / 4096 % 0x10 + 0xe0)).toNat = c.toNat / 4096 + 0xe0 := by
      rw [UInt8.toNat_ofNat']
      omega
    simp only [List.cons_append, List.nil_append, front?, hn, toNat_tail, isTail_tail]
    rw [if_neg (by omega), if_neg (by omega), if_pos (by omega), if_pos (by simp)]
    exact ofCode?_eq (by omega) (by omega)
  case isFalse hone htwo hthree =>
    have hn : (UInt8.ofNat (c.toNat / 262144 % 0x08 + 0xf0)).toNat = c.toNat / 262144 + 0xf0 := by
      rw [UInt8.toNat_ofNat']
      omega
    simp only [List.cons_append, List.nil_append, front?, hn, toNat_tail, isTail_tail]
    rw [if_neg (by omega), if_neg (by omega), if_neg (by omega)]
    have hfirst : decide (c.toNat / 262144 + 0xf0 < 0xF8) = true := by
      rw [decide_eq_true_eq]
      omega
    rw [hfirst, if_pos (by simp)]
    exact ofCode?_eq (by omega) (by omega)

/-! ## 2. Texts -/

theorem piecesFrom_length (skipped rest : List UInt8) :
    piecesFrom skipped.length (skipped ++ rest) = piecesFrom 0 rest := by
  induction skipped with
  | nil => rfl
  | cons b skipped ih => rw [List.length_cons, List.cons_append, piecesFrom, ih]

theorem pieces_utf8EncodeChar (c : Char) (rest : List UInt8) :
    pieces (String.utf8EncodeChar c ++ rest) = some c :: pieces rest := by
  have hfront := front?_utf8EncodeChar c rest
  cases hbytes : String.utf8EncodeChar c with
  | nil => exact absurd hbytes String.utf8EncodeChar_ne_nil
  | cons b bytes =>
    rw [hbytes, List.cons_append] at hfront
    rw [pieces, List.cons_append, piecesFrom, hfront]
    exact congrArg (some c :: ·) (piecesFrom_length bytes rest)

/-- **A text falls into its characters.** -/
theorem pieces_encode (cs : List Char) : pieces (encode cs) = cs.map some := by
  induction cs with
  | nil => rfl
  | cons c cs ih =>
    rw [encode, List.flatMap_cons, ← encode, pieces_utf8EncodeChar, ih, List.map_cons]

theorem text?_map_some (cs : List Char) : text? (cs.map some) = some cs := by
  induction cs with
  | nil => rfl
  | cons c cs ih =>
    rw [text?] at ih ⊢
    rw [List.map_cons, List.mapM_cons, ih]
    rfl

theorem decode?_encode (cs : List Char) : decode? (encode cs) = some cs := by
  rw [decode?, pieces_encode, text?_map_some]

/-! ## 3. Nothing else is read -/

theorem of_ofCode? {width width' below code : Nat} {c : Char}
    (h : ofCode? width below code = some (c, width')) :
    c.toNat = code ∧ below ≤ code ∧ width' = width := by
  by_cases hcode : below ≤ code ∧ code.isValidChar
  · rw [ofCode?, dif_pos hcode] at h
    obtain ⟨rfl, rfl⟩ := Prod.mk.inj (Option.some.inj h)
    exact ⟨rfl, hcode.1, rfl⟩
  · rw [ofCode?, dif_neg hcode] at h
    exact absurd h (by simp)

theorem toNat_of_isTail {b : UInt8} (h : isTail b = true) : 0x80 ≤ b.toNat ∧ b.toNat < 0xC0 := by
  simpa [isTail] using h

/-- A character that is found at the front is there in its UTF-8 form. -/
theorem of_front? {bytes : List UInt8} {c : Char} {width : Nat}
    (h : front? bytes = some (c, width)) :
    ∃ rest, bytes = String.utf8EncodeChar c ++ rest := by
  have hval : c.val.toNat = c.toNat := rfl
  unfold String.utf8EncodeChar
  simp only [hval]
  cases bytes with
  | nil => simp [front?] at h
  | cons a rest =>
    simp only [front?] at h
    split at h
    case isTrue hone =>
      obtain ⟨hcode, -⟩ := of_ofCode? h
      refine ⟨rest, ?_⟩
      rw [if_pos (by omega), hcode, UInt8.ofNat_toNat]
      rfl
    split at h
    case isTrue hone htwo =>
      split at h
      case h_2 => simp at h
      case h_1 b rest =>
        split at h
        case isFalse => simp at h
        case isTrue hb =>
          simp only [Bool.and_eq_true, decide_eq_true_eq] at hb
          obtain ⟨hcode, hbelow, -⟩ := of_ofCode? h
          have hb' := toNat_of_isTail hb.2
          refine ⟨rest, ?_⟩
          rw [if_neg (by omega), if_pos (by omega)]
          simp only [List.cons_append, List.nil_append, List.cons.injEq, and_true,
            ← UInt8.toNat_inj, UInt8.toNat_ofNat']
          omega
    split at h
    case isTrue hone htwo hthree =>
      split at h
      case h_2 => simp at h
      case h_1 b d rest =>
        split at h
        case isFalse => simp at h
        case isTrue hbd =>
          simp only [Bool.and_eq_true] at hbd
          obtain ⟨hcode, hbelow, -⟩ := of_ofCode? h
          have hb' := toNat_of_isTail hbd.1
          have hd' := toNat_of_isTail hbd.2
          refine ⟨rest, ?_⟩
          rw [if_neg (by omega), if_neg (by omega), if_pos (by omega)]
          simp only [List.cons_append, List.nil_append, List.cons.injEq, and_true,
            ← UInt8.toNat_inj, UInt8.toNat_ofNat']
          omega
    case isFalse hone htwo hthree =>
      split at h
      case h_2 => simp at h
      case h_1 b d e rest =>
        split at h
        case isFalse => simp at h
        case isTrue hbde =>
          simp only [Bool.and_eq_true, decide_eq_true_eq] at hbde
          obtain ⟨⟨⟨hlt, hb⟩, hd⟩, he⟩ := hbde
          obtain ⟨hcode, hbelow, -⟩ := of_ofCode? h
          have hb' := toNat_of_isTail hb
          have hd' := toNat_of_isTail hd
          have he' := toNat_of_isTail he
          refine ⟨rest, ?_⟩
          rw [if_neg (by omega), if_neg (by omega), if_neg (by omega)]
          simp only [List.cons_append, List.nil_append, List.cons.injEq, and_true,
            ← UInt8.toNat_inj, UInt8.toNat_ofNat']
          omega

theorem eq_encode_of_pieces {bytes : List UInt8} {cs : List Char}
    (h : pieces bytes = cs.map some) : bytes = encode cs := by
  induction cs generalizing bytes with
  | nil =>
    cases bytes with
    | nil => rfl
    | cons b bytes =>
      rw [pieces, piecesFrom] at h
      split at h <;> simp at h
  | cons c cs ih =>
    cases bytes with
    | nil => simp [pieces, piecesFrom] at h
    | cons b bytes =>
      have hfront : ∃ d width, front? (b :: bytes) = some (d, width) := by
        rw [pieces, piecesFrom] at h
        split at h
        case h_1 d width hfound => exact ⟨d, width, hfound⟩
        case h_2 => simp at h
      obtain ⟨d, width, hfound⟩ := hfront
      obtain ⟨rest, hbytes⟩ := of_front? hfound
      rw [hbytes, pieces_utf8EncodeChar, List.map_cons, List.cons.injEq,
        Option.some.injEq] at h
      rw [hbytes, h.1, ih h.2]
      rfl

theorem eq_map_some_of_text? {ps : List Piece} {cs : List Char} (h : text? ps = some cs) :
    ps = cs.map some := by
  induction ps generalizing cs with
  | nil =>
    obtain rfl := Option.some.inj h
    rfl
  | cons p ps ih =>
    simp only [text?, List.mapM_cons, id_eq, Option.bind_eq_bind, Option.bind_eq_some_iff,
      Option.pure_def, Option.some.injEq] at h
    obtain ⟨c, rfl, cs, hrest, rfl⟩ := h
    rw [List.map_cons, ← ih hrest]

/-- **Bytes are read as a text exactly if they are its UTF-8 form.** -/
theorem decode?_eq_some_iff {bytes : List UInt8} {cs : List Char} :
    decode? bytes = some cs ↔ bytes = encode cs := by
  constructor
  · intro h
    exact eq_encode_of_pieces (eq_map_some_of_text? h)
  · rintro rfl
    exact decode?_encode cs

end CalcJournal.Utf8
