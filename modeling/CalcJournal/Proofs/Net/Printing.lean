/-
CalcJournal.Proofs.Net.Printing — printed addresses are read back.

What is printed for an address is one of its texts (`isSocketAddress_chars`), so it is read back as
that address. It does not matter which stretch of zero groups is left out, only that it is one:
the reader puts as many zeros between the two sides as are lacking.
-/
import CalcJournal.Proofs.Net.Grammar
import CalcJournal.Proofs.Text.Digits

namespace CalcJournal.Net

open Text

/-! ## 1. Numbers -/

theorem runValue_concat (base : Nat) (run : List Char) (c : Char) :
    runValue base (run ++ [c]) = runValue base run * base + digitValue c := by
  simp [runValue]

/-- What is printed in a base whose digits are known for what they are. -/
theorem isNumeral_toDigits {base : Nat} (hbase : 1 < base)
    (hdigit : ∀ d, d < base →
      isDigitOf base (Nat.digitChar d) = true ∧ digitValue (Nat.digitChar d) = d) (n : Nat) :
    IsNumeral base (Nat.toDigits base n) n := by
  induction n using Nat.strongRecOn with
  | ind n ih =>
    rcases Nat.lt_or_ge n base with hlt | hge
    · obtain ⟨hchar, hvalue⟩ := hdigit n hlt
      rw [Nat.toDigits_of_lt_base hlt]
      exact ⟨by simp, by simpa using hchar, by simpa [runValue] using hvalue⟩
    · have hrest := ih (n / base) (Nat.div_lt_self (by omega) hbase)
      obtain ⟨hchar, hvalue⟩ := hdigit (n % base) (Nat.mod_lt n (by omega))
      rw [Nat.toDigits_of_base_le hbase hge]
      refine ⟨by simp, ?_, ?_⟩
      · intro c hc
        rcases List.mem_append.1 hc with hc | hc
        · exact hrest.digits c hc
        · rwa [List.mem_singleton.1 hc]
      · rw [runValue_concat, hrest.value, hvalue, Nat.mul_comm, Nat.div_add_mod]

theorem isNumeral_decimal (n : Nat) : IsNumeral 10 (decimal n) n :=
  isNumeral_toDigits (by decide) (by decide) n

theorem isByte_decimal (b : Fin 256) : IsByte (decimal b) b where
  numeral := isNumeral_decimal b
  length_le := (Nat.length_toDigits_le_iff (by decide) (by decide)).2 (by omega)
  leading := by
    rcases Nat.eq_zero_or_pos b.val with hzero | hpos
    · exact .inl (by rw [hzero]; decide)
    · exact .inr (head?_decimal_ne hpos)

theorem isGroup_groupChars (g : Fin 65536) : IsGroup (groupChars g) g where
  numeral := isNumeral_toDigits (by decide) (by decide) g
  length_le := (Nat.length_toDigits_le_iff (by decide) (by decide)).2 (by omega)

/-! ## 2. IP addresses -/

theorem isIpv4_chars (ip : Ipv4) : IsIpv4 ip.chars ip :=
  .dotted (isByte_decimal ip.a) (isByte_decimal ip.b) (isByte_decimal ip.c) (isByte_decimal ip.d)

theorem isGroups_groupListChars {gs : List (Fin 65536)} (h : gs ≠ []) :
    IsGroups false (groupListChars gs) gs := by
  match gs with
  | [g] => exact .one (isGroup_groupChars g)
  | g :: g' :: gs =>
    exact .cons (isGroup_groupChars g) (isGroups_groupListChars (List.cons_ne_nil g' gs))

theorem isSide_groupListChars (gs : List (Fin 65536)) : IsSide false (groupListChars gs) gs := by
  cases gs with
  | nil => exact .none
  | cons g gs => exact .some (isGroups_groupListChars (List.cons_ne_nil g gs))

theorem groupOfBytes_bytes (g : Fin 65536) : groupOfBytes (highByte g) (lowByte g) = g := by
  apply Fin.ext
  simp only [groupOfBytes, highByte, lowByte]
  omega

theorem isIpv6_mapped {ip : Ipv6} {v4 : Ipv4} (h : ip.mapped? = some v4) :
    IsIpv6 ("::ffff:".toList ++ v4.chars) ip := by
  unfold Ipv6.mapped? at h
  split at h
  case h_2 => simp at h
  case h_1 a b c d e f g k hgroups =>
    split at h
    case isFalse => simp at h
    case isTrue hmapped =>
      obtain rfl := Option.some.inj h
      simp only [List.map_cons, List.map_nil, List.cons.injEq, and_true] at hmapped
      obtain ⟨ha, hb, hc, hd, he, hf⟩ := hmapped
      have hffff : IsGroup ['f', 'f', 'f', 'f'] f :=
        ⟨⟨by decide, List.all_eq_true.1 (by decide), by rw [hf]; decide⟩, by decide⟩
      have hv4 := IsGroups.ipv4 (isIpv4_chars (.ofGroups g k))
      simp only [Ipv4.ofGroups, groupOfBytes_bytes] at hv4
      have hzeros : ∀ z ∈ [a, b, c, d, e], z.val = 0 := by
        simp only [List.forall_mem_cons]
        exact ⟨ha, hb, hc, hd, he, by simp⟩
      have hnone : IsSide false [] [] := .none
      exact .short hnone (.some (.cons hffff hv4)) (List.cons_ne_nil a [b, c, d, e]) hzeros hgroups

/-- The groups in front of a place, the zeros from there on and what follows them. -/
theorem append_zerosFrom (gs : List (Fin 65536)) (start : Nat) :
    gs = gs.take start ++ ((gs.drop start).takeWhile (fun g => g.val == 0)
      ++ gs.drop (start + zerosFrom gs start)) := by
  have hbehind : gs.drop (start + zerosFrom gs start)
      = (gs.drop start).dropWhile (fun g => g.val == 0) := by
    have hparts := @List.takeWhile_append_dropWhile _ (fun g : Fin 65536 => g.val == 0)
      (gs.drop start)
    rw [← List.drop_drop, zerosFrom]
    exact (congrArg (List.drop _) hparts).symm.trans List.drop_left
  rw [hbehind, List.takeWhile_append_dropWhile, List.take_append_drop]

theorem isIpv6_chars (ip : Ipv6) : IsIpv6 ip.chars ip := by
  unfold Ipv6.chars
  split
  case h_1 v4 h => exact isIpv6_mapped h
  case h_2 =>
    dsimp only
    split
    case isTrue hcount =>
      refine .short (isSide_groupListChars _) (isSide_groupListChars _) ?_ ?_
        (append_zerosFrom ip.groups (longestZeros ip.groups))
      · rw [← List.length_pos_iff]
        exact Nat.lt_of_succ_lt hcount
      · intro g hg
        simpa using List.all_eq_true.1 List.all_takeWhile g hg
    case isFalse =>
      refine .full (isGroups_groupListChars ?_)
      rw [← List.length_pos_iff, ip.length_groups]
      decide

/-! ## 3. Socket addresses -/

theorem isScope_scopeChars (scope : Fin 4294967296) : IsScope (scopeChars scope) scope := by
  unfold scopeChars
  split
  case isTrue h => exact .none h
  case isFalse => exact .some (isNumeral_decimal scope)

/-- **What is printed for an address is one of its texts.** -/
theorem isSocketAddress_chars (a : SocketAddress) : IsSocketAddress a.chars a := by
  cases a with
  | v4 ip port => exact .v4 (isIpv4_chars ip) (isNumeral_decimal port)
  | v6 ip scope port =>
    exact .v6 (isIpv6_chars ip) (isScope_scopeChars scope) (isNumeral_decimal port)

end CalcJournal.Net
