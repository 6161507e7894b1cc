/-
CalcJournal.Proofs.Net.Grammar — the texts of socket addresses.

The texts of an address are given by a grammar. The bytes of an IPv4 address are written in up to
three decimal digits without zeros in front, and the groups of an IPv6 address in up to four
hexadecimal ones. Two colons stand for a stretch of zero groups, in one place at most, and an IPv4
address may stand for the last two groups. An address has many texts in this grammar, but a text
has one address.

The reader takes as many groups as it can. It never takes too many: where the groups in front of
two colons end, the second colon starts no group, and where the last one ends, what follows is no
part of an address at all. So it reads exactly the grammar (`ofChars?_eq_some_iff`).
-/
import CalcJournal.Net.Reading
import CalcJournal.Proofs.Text.Scanning

namespace CalcJournal.Net

open Text

/-! ## 1. The grammar -/

/-- One digit or more of a base, with their value. -/
structure IsNumeral (base : Nat) (run : List Char) (n : Nat) : Prop where
  ne_nil : run ≠ []
  digits : ∀ c ∈ run, isDigitOf base c = true
  value : runValue base run = n

/-- A byte in up to three decimal digits, with no zero in front of others. -/
structure IsByte (cs : List Char) (b : Fin 256) : Prop where
  numeral : IsNumeral 10 cs b.val
  length_le : cs.length ≤ 3
  leading : cs.length = 1 ∨ cs.head? ≠ some '0'

/-- A group in up to four hexadecimal digits. -/
structure IsGroup (cs : List Char) (g : Fin 65536) : Prop where
  numeral : IsNumeral 16 cs g.val
  length_le : cs.length ≤ 4

/-- Four bytes with points between them. -/
inductive IsIpv4 : List Char → Ipv4 → Prop
  | dotted {a b c d : List Char} {ip : Ipv4} (ha : IsByte a ip.a) (hb : IsByte b ip.b)
      (hc : IsByte c ip.c) (hd : IsByte d ip.d) :
      IsIpv4 (a ++ '.' :: (b ++ '.' :: (c ++ '.' :: d))) ip

/-- One group or more with colons between them; the flag tells that the last two are written as
an IPv4 address. -/
inductive IsGroups : Bool → List Char → List (Fin 65536) → Prop
  | one {cs : List Char} {g : Fin 65536} (h : IsGroup cs g) : IsGroups false cs [g]
  | ipv4 {cs : List Char} {ip : Ipv4} (h : IsIpv4 cs ip) :
      IsGroups true cs [groupOfBytes ip.a ip.b, groupOfBytes ip.c ip.d]
  | cons {tail : Bool} {cs rest : List Char} {g : Fin 65536} {gs : List (Fin 65536)}
      (hg : IsGroup cs g) (h : IsGroups tail rest gs) :
      IsGroups tail (cs ++ ':' :: rest) (g :: gs)

/-- Groups on one side of two colons, which may be none. -/
inductive IsSide : Bool → List Char → List (Fin 65536) → Prop
  | none : IsSide false [] []
  | some {tail : Bool} {cs : List Char} {gs : List (Fin 65536)} (h : IsGroups tail cs gs) :
      IsSide tail cs gs

theorem IsSide.eq_nil_or {tail : Bool} {cs : List Char} {gs : List (Fin 65536)}
    (h : IsSide tail cs gs) : gs = [] ∨ IsGroups tail cs gs := by
  cases h with
  | none => exact .inl rfl
  | some h => exact .inr h

/-- Eight groups, all written out or with two colons for a stretch of zeros. -/
inductive IsIpv6 : List Char → Ipv6 → Prop
  | full {tail : Bool} {cs : List Char} {ip : Ipv6} (h : IsGroups tail cs ip.groups) :
      IsIpv6 cs ip
  | short {tail : Bool} {front back : List Char} {before zeros behind : List (Fin 65536)}
      {ip : Ipv6} (hfront : IsSide false front before) (hback : IsSide tail back behind)
      (hne : zeros ≠ []) (hzeros : ∀ g ∈ zeros, g.val = 0)
      (hgroups : ip.groups = before ++ (zeros ++ behind)) :
      IsIpv6 (front ++ ':' :: ':' :: back) ip

/-- A scope behind a percent sign; without one it is zero. -/
inductive IsScope : List Char → Fin 4294967296 → Prop
  | none {scope : Fin 4294967296} (h : scope.val = 0) : IsScope [] scope
  | some {cs : List Char} {scope : Fin 4294967296} (h : IsNumeral 10 cs scope.val) :
      IsScope ('%' :: cs) scope

/-- An IP address and a port, with a colon between them; an IPv6 address and its scope are in
brackets. -/
inductive IsSocketAddress : List Char → SocketAddress → Prop
  | v4 {ipChars portChars : List Char} {ip : Ipv4} {port : Fin 65536} (hip : IsIpv4 ipChars ip)
      (hport : IsNumeral 10 portChars port.val) :
      IsSocketAddress (ipChars ++ ':' :: portChars) (.v4 ip port)
  | v6 {ipChars scopeChars portChars : List Char} {ip : Ipv6} {scope : Fin 4294967296}
      {port : Fin 65536} (hip : IsIpv6 ipChars ip) (hscope : IsScope scopeChars scope)
      (hport : IsNumeral 10 portChars port.val) :
      IsSocketAddress ('[' :: (ipChars ++ (scopeChars ++ ']' :: ':' :: portChars)))
        (.v6 ip scope port)

/-! ## 2. Numbers -/

section Numbers

variable {base n : Nat} {admits : List Char → Bool} {cs rest : List Char}

theorem bounded?_append {run : List Char} {b : Fin n} (h : IsNumeral base run b.val)
    (hadmits : admits run = true) (hstop : Stops (isDigitOf base) rest) :
    bounded? base n admits (run ++ rest) = some (b, rest) := by
  have hlt : runValue base run < n := by rw [h.value]; exact b.isLt
  have hne : run.isEmpty = false := by simpa using h.ne_nil
  have hvalue : (⟨runValue base run, hlt⟩ : Fin n) = b := Fin.ext h.value
  simp only [bounded?, takeWhile_prefix h.digits hstop, dropWhile_prefix h.digits hstop, hlt,
    dif_pos, hne, hadmits, hvalue]
  rfl

/-- A number that is read is the run at the front, up to what stops it. -/
theorem of_bounded? {b : Fin n} (h : bounded? base n admits cs = some (b, rest)) :
    ∃ run, cs = run ++ rest ∧ IsNumeral base run b.val ∧ admits run = true ∧
      Stops (isDigitOf base) rest := by
  unfold bounded? at h
  dsimp only at h
  split at h
  case isFalse => simp at h
  case isTrue hlt =>
    split at h
    case isFalse => simp at h
    case isTrue hrun =>
      obtain ⟨rfl, rfl⟩ := Prod.mk.inj (Option.some.inj h)
      simp only [Bool.and_eq_true, Bool.not_eq_true', List.isEmpty_eq_false_iff] at hrun
      exact ⟨_, List.takeWhile_append_dropWhile.symm,
        ⟨hrun.1, List.all_eq_true.1 List.all_takeWhile, rfl⟩, hrun.2, stops_dropWhile _ _⟩

/-- Where no digit is, no number is read. -/
theorem bounded?_of_stops (h : Stops (isDigitOf base) cs) : bounded? base n admits cs = none := by
  simp [bounded?, takeWhile_of_stops h]

end Numbers

/-- The characters that could carry on a group or a byte, or make a group the first byte of an IPv4
address. -/
def isAddressChar (c : Char) : Bool := isDigitOf 16 c || c == '.'

theorem isDigitOf_sixteen {c : Char} (h : isDigitOf 10 c = true) : isDigitOf 16 c = true := by
  have hdigit : c.isDigit = true := by simpa [isDigitOf] using h
  simp [isDigitOf, hdigit]

section Stopping

variable {cs : List Char} (h : Stops isAddressChar cs)
include h

theorem stops_hexadecimal : Stops (isDigitOf 16) cs := by
  intro c hc
  have := h c hc
  simp only [isAddressChar, Bool.or_eq_false_iff] at this
  exact this.1

theorem stops_decimal : Stops (isDigitOf 10) cs := by
  intro c hc
  refine Bool.eq_false_iff.2 fun hdigit => ?_
  have := stops_hexadecimal h c hc
  rw [isDigitOf_sixteen hdigit] at this
  simp at this

end Stopping

/-! ## 3. IPv4 addresses and groups -/

section Parts

variable {cs rest : List Char}

theorem byte?_append {b : Fin 256} (h : IsByte cs b) (hstop : Stops (isDigitOf 10) rest) :
    byte? (cs ++ rest) = some (b, rest) := by
  refine bounded?_append h.numeral ?_ hstop
  simp only [Bool.and_eq_true, Bool.or_eq_true, decide_eq_true_eq, beq_iff_eq, bne_iff_ne]
  exact ⟨h.length_le, h.leading⟩

theorem of_byte? {b : Fin 256} (h : byte? cs = some (b, rest)) :
    ∃ run, cs = run ++ rest ∧ IsByte run b ∧ Stops (isDigitOf 10) rest := by
  obtain ⟨run, hcs, hrun, hadmits, hstop⟩ := of_bounded? h
  simp only [Bool.and_eq_true, Bool.or_eq_true, decide_eq_true_eq, beq_iff_eq, bne_iff_ne]
    at hadmits
  exact ⟨run, hcs, ⟨hrun, hadmits.1, hadmits.2⟩, hstop⟩

theorem group?_append {g : Fin 65536} (h : IsGroup cs g) (hstop : Stops (isDigitOf 16) rest) :
    group? (cs ++ rest) = some (g, rest) :=
  bounded?_append h.numeral (decide_eq_true h.length_le) hstop

theorem of_group? {g : Fin 65536} (h : group? cs = some (g, rest)) :
    ∃ run, cs = run ++ rest ∧ IsGroup run g ∧ Stops (isDigitOf 16) rest := by
  obtain ⟨run, hcs, hrun, hadmits, hstop⟩ := of_bounded? h
  exact ⟨run, hcs, ⟨hrun, of_decide_eq_true hadmits⟩, hstop⟩

theorem of_behind? {c : Char} (h : behind? c cs = some rest) : cs = c :: rest := by
  unfold behind? at h
  split at h
  · split at h
    case isTrue hc => rw [hc, Option.some.inj h]
    case isFalse => simp at h
  · simp at h

@[simp] theorem behind?_cons (c : Char) (rest : List Char) : behind? c (c :: rest) = some rest :=
  if_pos rfl

theorem ipv4?_append {ip : Ipv4} (h : IsIpv4 cs ip) (hstop : Stops (isDigitOf 10) rest) :
    ipv4? (cs ++ rest) = some (ip, rest) := by
  cases h with
  | dotted ha hb hc hd =>
    have hpoint : ∀ rest, Stops (isDigitOf 10) ('.' :: rest) := fun _ => stops_cons.2 (by decide)
    simp only [ipv4?, List.append_assoc, List.cons_append, byte?_append ha (hpoint _),
      byte?_append hb (hpoint _), byte?_append hc (hpoint _), byte?_append hd hstop,
      Option.bind_eq_bind, Option.bind_some, behind?_cons]
    rfl

theorem of_ipv4? {ip : Ipv4} (h : ipv4? cs = some (ip, rest)) :
    ∃ run, cs = run ++ rest ∧ IsIpv4 run ip ∧ Stops (isDigitOf 10) rest := by
  simp only [ipv4?, Option.bind_eq_bind, Option.bind_eq_some_iff, Prod.exists, Option.pure_def,
    Option.some.injEq, Prod.mk.injEq] at h
  obtain ⟨a, csa, ha, csa', ha', b, csb, hb, csb', hb', c, csc, hc, csc', hc', d, csd, hd, rfl,
    rfl⟩ := h
  obtain ⟨runA, rfl, hrunA, -⟩ := of_byte? ha
  obtain rfl := of_behind? ha'
  obtain ⟨runB, rfl, hrunB, -⟩ := of_byte? hb
  obtain rfl := of_behind? hb'
  obtain ⟨runC, rfl, hrunC, -⟩ := of_byte? hc
  obtain rfl := of_behind? hc'
  obtain ⟨runD, rfl, hrunD, hstop⟩ := of_byte? hd
  exact ⟨_, by simp, .dotted hrunA hrunB hrunC hrunD, hstop⟩

/-- Hexadecimal digits that no point follows are no IPv4 address. -/
theorem ipv4?_of_stops {run : List Char} (hrun : ∀ c ∈ run, isDigitOf 16 c = true)
    (hstop : Stops isAddressChar rest) : ipv4? (run ++ rest) = none := by
  refine Option.eq_none_iff_forall_ne_some.2 fun ⟨ip, rest'⟩ h => ?_
  simp only [ipv4?, Option.bind_eq_bind, Option.bind_eq_some_iff, Prod.exists] at h
  obtain ⟨b, after, hbyte, after', hpoint, -⟩ := h
  obtain ⟨digits, htext, hdigits, -⟩ := of_byte? hbyte
  rw [of_behind? hpoint] at htext
  -- the point would be one of the digits, or stand behind them
  rcases List.append_eq_append_iff.1 htext with ⟨w, rfl, hw⟩ | ⟨w, rfl, hw⟩
  · cases w with
    | nil =>
      rw [List.nil_append] at hw
      exact absurd (stops_cons.1 (hw ▸ hstop)) (by decide)
    | cons c w =>
      rw [hw, List.cons_append] at hstop
      have hdigit := isDigitOf_sixteen (hdigits.numeral.digits c (by simp))
      have hnot := stops_cons.1 hstop
      simp [isAddressChar, hdigit] at hnot
  · cases w with
    | nil =>
      rw [List.nil_append] at hw
      exact absurd (stops_cons.1 (hw ▸ hstop)) (by decide)
    | cons c w =>
      obtain ⟨rfl, -⟩ := List.cons.inj hw
      exact absurd (hrun '.' (by simp)) (by decide)

end Parts

/-! ## 4. Runs of groups -/

/-- The text with the mark in front of it that stands before a group. -/
def marked (isFirst : Bool) (cs : List Char) : List Char := if isFirst then cs else ':' :: cs

theorem beforeGroup?_marked (isFirst : Bool) (cs : List Char) :
    beforeGroup? isFirst (marked isFirst cs) = some cs := by
  cases isFirst <;> simp [marked, beforeGroup?]

theorem of_beforeGroup? {isFirst : Bool} {cs rest : List Char}
    (h : beforeGroup? isFirst cs = some rest) : cs = marked isFirst rest := by
  cases isFirst with
  | true => exact Option.some.inj h
  | false => exact of_behind? h

/-- No further group is at the front of the text. -/
def Halts (isFirst : Bool) (cs : List Char) : Prop :=
  ∀ rest, beforeGroup? isFirst cs = some rest → Stops isAddressChar rest

section Groups

variable {cs rest : List Char} {gs : List (Fin 65536)} {tail isFirst : Bool} {room : Nat}

theorem readGroups_of_halts (h : room = 0 ∨ Halts isFirst rest) :
    readGroups isFirst room rest = ⟨[], false, rest⟩ := by
  cases room with
  | zero => rfl
  | succ room =>
    have hhalts := h.resolve_left (Nat.succ_ne_zero room)
    have hgroup : (beforeGroup? isFirst rest).bind group? = none := by
      cases hmark : beforeGroup? isFirst rest with
      | none => rfl
      | some after =>
        rw [Option.bind_some]
        exact bounded?_of_stops (stops_hexadecimal (hhalts after hmark))
    have hipv4 : (beforeGroup? isFirst rest).bind ipv4? = none := by
      cases hmark : beforeGroup? isFirst rest with
      | none => rfl
      | some after => exact @ipv4?_of_stops after [] (by simp) (hhalts after hmark)
    simp only [readGroups, hgroup, hipv4, ite_self]

theorem stops_colon (cs : List Char) : Stops isAddressChar (':' :: cs) :=
  stops_cons.2 (by decide)

/-- A group that no IPv4 address starts with is taken, and the reader goes on behind it. -/
theorem readGroups_group {g : Fin 65536} (h : IsGroup cs g) (hstop : Stops isAddressChar rest) :
    readGroups isFirst (room + 1) (marked isFirst (cs ++ rest))
      = { readGroups false room rest with groups := g :: (readGroups false room rest).groups } := by
  have hipv4 := ipv4?_of_stops h.numeral.digits hstop
  have hgroup := group?_append h (stops_hexadecimal hstop)
  simp only [readGroups, beforeGroup?_marked, Option.bind_some, hipv4, hgroup, ite_self]

/-- Groups are taken if there is room for them, and the reader stops where they end. -/
theorem readGroups_append (h : IsGroups tail cs gs) (hroom : gs.length ≤ room)
    (hstop : Stops isAddressChar rest) (hhalts : gs.length = room ∨ Halts false rest) :
    readGroups isFirst room (marked isFirst (cs ++ rest)) = ⟨gs, tail, rest⟩ := by
  induction h generalizing isFirst room with
  | @one cs g h =>
    obtain ⟨room, rfl⟩ : ∃ n, room = n + 1 := ⟨room - 1, by simp at hroom; omega⟩
    have hend : room = 0 ∨ Halts false rest := hhalts.imp_left fun h => by simpa using h.symm
    rw [readGroups_group h hstop, readGroups_of_halts hend]
  | @ipv4 cs ip h =>
    obtain ⟨room, rfl⟩ : ∃ n, room = n + 2 := ⟨room - 2, by simp at hroom; omega⟩
    have hread := ipv4?_append h (stops_decimal hstop)
    simp only [readGroups, beforeGroup?_marked, Option.bind_some, hread]
    rw [if_pos (by omega)]
  | @cons tail cs more g gs hg h ih =>
    rw [List.length_cons] at hroom hhalts
    obtain ⟨room, rfl⟩ : ∃ n, room = n + 1 := ⟨room - 1, by omega⟩
    have hmore := @ih false room (by omega) (hhalts.imp_left fun h => by omega)
    have htext : cs ++ ':' :: more ++ rest = cs ++ marked false (more ++ rest) := by simp [marked]
    have hstops : Stops isAddressChar (marked false (more ++ rest)) := stops_colon _
    rw [htext, readGroups_group hg hstops, hmore]

/-- No more groups are taken than there is room for. -/
theorem length_readGroups_le (isFirst : Bool) (room : Nat) (cs : List Char) :
    (readGroups isFirst room cs).groups.length ≤ room := by
  induction room generalizing isFirst cs with
  | zero => simp [readGroups]
  | succ room ih =>
    unfold readGroups
    split
    case h_1 ip rest hipv4 =>
      split at hipv4
      case isTrue hroom =>
        show 2 ≤ room + 1
        omega
      case isFalse => simp at hipv4
    case h_2 =>
      split
      case h_1 => simp
      case h_2 g rest _ =>
        have := ih false rest
        show (readGroups false room rest).groups.length + 1 ≤ room + 1
        omega

/-- What is taken is groups, with nothing left out. -/
theorem of_readGroups {run : GroupRun} (h : readGroups isFirst room cs = run) :
    (run.groups = [] ∧ run.endsInIpv4 = false ∧ run.rest = cs) ∨
    ∃ front, IsGroups run.endsInIpv4 front run.groups ∧ cs = marked isFirst (front ++ run.rest) := by
  induction room generalizing isFirst cs run with
  | zero =>
    subst h
    exact .inl ⟨rfl, rfl, rfl⟩
  | succ room ih =>
    unfold readGroups at h
    split at h
    case h_1 ip rest hipv4 =>
      subst h
      split at hipv4
      case isFalse => simp at hipv4
      case isTrue =>
        obtain ⟨after, hmark, hread⟩ := Option.bind_eq_some_iff.1 hipv4
        obtain ⟨front, rfl, hfront, -⟩ := of_ipv4? hread
        exact .inr ⟨front, .ipv4 hfront, of_beforeGroup? hmark⟩
    case h_2 =>
      split at h
      case h_1 =>
        subst h
        exact .inl ⟨rfl, rfl, rfl⟩
      case h_2 g rest hgroup =>
        subst h
        obtain ⟨after, hmark, hread⟩ := Option.bind_eq_some_iff.1 hgroup
        obtain ⟨front, rfl, hfront, -⟩ := of_group? hread
        obtain rfl := of_beforeGroup? hmark
        right
        rcases @ih rest false _ rfl with ⟨hgroups, htail, hrest⟩ | ⟨more, hmore, hrest⟩
        · refine ⟨front, ?_, congrArg (fun rest => marked isFirst (front ++ rest)) hrest.symm⟩
          show IsGroups (readGroups false room rest).endsInIpv4 front
            (g :: (readGroups false room rest).groups)
          rw [hgroups, htail]
          exact .one hfront
        · refine ⟨front ++ ':' :: more, .cons hfront hmore, ?_⟩
          have htext : front ++ ':' :: more ++ (readGroups false room rest).rest
              = front ++ rest := by
            rw [List.append_assoc, List.cons_append]
            exact congrArg (front ++ ·) hrest.symm
          exact congrArg (marked isFirst) htext.symm

end Groups

/-! ## 5. IPv6 addresses -/

section Ipv6

variable {cs rest : List Char}

theorem Ipv6.ofList?_groups (ip : Ipv6) : Ipv6.ofList? ip.groups = some ip :=
  dif_pos ip.length_groups

theorem Ipv6.groups_of_ofList? {gs : List (Fin 65536)} {ip : Ipv6} (h : Ipv6.ofList? gs = some ip) :
    ip.groups = gs := by
  unfold Ipv6.ofList? at h
  split at h
  · rw [← Option.some.inj h]
  · simp at h

/-- What is no part of an address, and no colon, does not carry one on. -/
def Ends (cs : List Char) : Prop := Stops isAddressChar cs ∧ Stops (· == ':') cs

theorem Ends.halts (h : Ends cs) (isFirst : Bool) : Halts isFirst cs := by
  intro rest hmark
  cases isFirst with
  | true => rw [← Option.some.inj hmark]; exact h.1
  | false =>
    rw [of_behind? hmark] at h
    simpa using stops_cons.1 h.2

/-- The groups on one side of two colons are taken. -/
theorem readGroups_side {tail : Bool} {gs : List (Fin 65536)} {room : Nat}
    (h : IsSide tail cs gs) (hroom : gs.length ≤ room) (hstop : Stops isAddressChar rest)
    (hhalts : Halts false rest) (hnone : Halts true rest) :
    readGroups true room (cs ++ rest) = ⟨gs, tail, rest⟩ := by
  cases h with
  | none => exact readGroups_of_halts (.inr hnone)
  | some h => exact @readGroups_append cs rest gs tail true room h hroom hstop (.inr hhalts)

theorem ipv6?_append {ip : Ipv6} (h : IsIpv6 cs ip) (hends : Ends rest) :
    ipv6? (cs ++ rest) = some (ip, rest) := by
  cases h with
  | @full tail _ _ h =>
    have hread := @readGroups_append cs rest ip.groups tail true 8 h
      (Nat.le_of_eq ip.length_groups) hends.1 (.inl ip.length_groups)
    simp only [marked, if_true] at hread
    simp only [ipv6?, hread, ip.length_groups, if_true, Ipv6.ofList?_groups, Option.map_some]
  | @short tail front back before zeros behind _ hfront hback hne hzeros hgroups =>
    have hlength := ip.length_groups
    have hpos := List.length_pos_iff.2 hne
    rw [hgroups, List.length_append, List.length_append] at hlength
    have hcolons : Halts false (':' :: ':' :: (back ++ rest)) := by
      intro after hmark
      obtain rfl : ':' :: (back ++ rest) = after := Option.some.inj hmark
      exact stops_colon _
    have hread := @readGroups_side front (':' :: ':' :: (back ++ rest)) false before 8 hfront
      (by omega) (stops_colon _) hcolons
      (fun after hmark => by rw [← Option.some.inj hmark]; exact stops_colon _)
    have hreadBack := @readGroups_side back rest tail behind (7 - before.length) hback (by omega)
      hends.1 (hends.halts false) (hends.halts true)
    have hcount : 8 - before.length - behind.length = zeros.length := by omega
    have hzero : List.replicate zeros.length ⟨0, by decide⟩ = zeros :=
      (List.eq_replicate_iff.2 ⟨rfl, fun g hg => Fin.ext (hzeros g hg)⟩).symm
    have hwhole : before ++ zeros ++ behind = ip.groups := by rw [hgroups, List.append_assoc]
    have hshort : ¬ before.length = 8 := by omega
    simp only [ipv6?, List.append_assoc, List.cons_append, hread, hshort, if_false, hreadBack,
      hcount, hzero, hwhole, Ipv6.ofList?_groups, Bool.false_eq_true, Option.map_some]

/-- What is taken without a mark in front is one side of two colons. -/
theorem of_readGroups_first {room : Nat} {run : GroupRun} (h : readGroups true room cs = run) :
    ∃ front, cs = front ++ run.rest ∧ IsSide run.endsInIpv4 front run.groups := by
  rcases of_readGroups h with ⟨hgroups, htail, hrest⟩ | ⟨front, hfront, hcs⟩
  · refine ⟨[], by rw [hrest, List.nil_append], ?_⟩
    rw [hgroups, htail]
    exact .none
  · exact ⟨front, hcs, .some hfront⟩

theorem of_ipv6? {ip : Ipv6} (h : ipv6? cs = some (ip, rest)) :
    ∃ front, cs = front ++ rest ∧ IsIpv6 front ip := by
  unfold ipv6? at h
  dsimp only at h
  obtain ⟨front, hcs, hside⟩ := @of_readGroups_first cs 8 _ rfl
  have hlength := length_readGroups_le true 8 cs
  generalize readGroups true 8 cs = run at h hcs hside hlength
  split at h
  case isTrue height =>
    obtain ⟨ip, hip, hpair⟩ := Option.map_eq_some_iff.1 h
    obtain ⟨rfl, rfl⟩ := Prod.mk.inj hpair
    rw [← Ipv6.groups_of_ofList? hip] at height hside
    rcases hside.eq_nil_or with hnil | hgroups
    · simp [hnil] at height
    · exact ⟨front, hcs, .full hgroups⟩
  split at h
  case isTrue => simp at h
  case isFalse height htail =>
    split at h
    case h_2 => simp at h
    case h_1 after hrest =>
      obtain ⟨ip, hip, hpair⟩ := Option.map_eq_some_iff.1 h
      obtain ⟨rfl, rfl⟩ := Prod.mk.inj hpair
      obtain ⟨back, hafter, hback⟩ := @of_readGroups_first after (7 - run.groups.length) _ rfl
      have hroom := length_readGroups_le true (7 - run.groups.length) after
      generalize readGroups true (7 - run.groups.length) after = behind at *
      have hgroups := Ipv6.groups_of_ofList? hip
      rw [List.append_assoc] at hgroups
      refine ⟨front ++ ':' :: ':' :: back, by simp [hcs, hrest, hafter], ?_⟩
      rw [Bool.not_eq_true] at htail
      rw [htail] at hside
      refine .short hside hback ?_ ?_ hgroups
      · simp only [ne_eq, List.replicate_eq_nil_iff]
        omega
      · intro g hg
        rw [(List.mem_replicate.1 hg).2]

end Ipv6

/-! ## 6. Socket addresses -/

section Socket

variable {cs rest : List Char}

theorem scope?_append {scope : Fin 4294967296} (h : IsScope cs scope) (rest : List Char) :
    scope? (cs ++ ']' :: rest) = some (scope, ']' :: rest) := by
  cases h with
  | none h =>
    obtain rfl : (⟨0, by decide⟩ : Fin 4294967296) = scope := Fin.ext h.symm
    rfl
  | @some run _ h =>
    exact @bounded?_append 10 4294967296 (fun _ => true) (']' :: rest) run scope h rfl
      (stops_cons.2 (by decide))

theorem of_scope? {scope : Fin 4294967296} (h : scope? cs = some (scope, rest)) :
    ∃ front, cs = front ++ rest ∧ IsScope front scope := by
  unfold scope? at h
  split at h
  · obtain ⟨run, rfl, hrun, -⟩ := of_bounded? h
    exact ⟨'%' :: run, rfl, .some hrun⟩
  · obtain ⟨rfl, rfl⟩ := Prod.mk.inj (Option.some.inj h)
    exact ⟨[], rfl, .none rfl⟩

theorem port?_eq_some_iff {port : Fin 65536} :
    port? cs = some port ↔ ∃ run, cs = ':' :: run ∧ IsNumeral 10 run port.val := by
  constructor
  · intro h
    simp only [port?, Option.bind_eq_bind, Option.bind_eq_some_iff, Prod.exists] at h
    obtain ⟨after, hcolon, p, rest, hread, hrest⟩ := h
    split at hrest
    case isFalse => simp at hrest
    case isTrue hempty =>
      obtain rfl := Option.some.inj hrest
      obtain rfl := List.isEmpty_iff.1 hempty
      obtain ⟨run, rfl, hrun, -⟩ := of_bounded? hread
      exact ⟨run, by rw [of_behind? hcolon, List.append_nil], hrun⟩
  · rintro ⟨run, rfl, hrun⟩
    have hread := @bounded?_append 10 65536 (fun _ => true) [] run port hrun rfl stops_nil
    rw [List.append_nil] at hread
    simp only [port?, behind?_cons, Option.bind_eq_bind, Option.bind_some, hread]
    rfl

theorem ipv4_ne_bracket {ip : Ipv4} (h : IsIpv4 cs ip) (rest : List Char) :
    ∃ c more, cs ++ rest = c :: more ∧ c ≠ '[' := by
  cases h with
  | @dotted a b c d ip ha hb hc hd =>
    cases a with
    | nil => exact absurd rfl ha.numeral.ne_nil
    | cons digit a =>
      refine ⟨digit, _, rfl, ?_⟩
      rintro rfl
      exact absurd (ha.numeral.digits '[' (by simp)) (by decide)

theorem ofChars?_of_isSocketAddress {a : SocketAddress} (h : IsSocketAddress cs a) :
    SocketAddress.ofChars? cs = some a := by
  cases h with
  | @v4 ipChars portChars ip port hip hport =>
    have hread := @ipv4?_append ipChars (':' :: portChars) ip hip (stops_cons.2 (by decide))
    have hv4 : socketV4? (ipChars ++ ':' :: portChars) = some (.v4 ip port) := by
      simp only [socketV4?, hread, Option.bind_eq_bind, Option.bind_some,
        port?_eq_some_iff.2 ⟨portChars, rfl, hport⟩]
      rfl
    obtain ⟨c, more, htext, hc⟩ := ipv4_ne_bracket hip (':' :: portChars)
    rw [htext] at hv4 ⊢
    rw [SocketAddress.ofChars?, hv4]
    simpa using hc
  | @v6 ipChars scopeChars portChars ip scope port hip hscope hport =>
    have hends : Ends (scopeChars ++ ']' :: ':' :: portChars) := by
      cases hscope with
      | none => exact ⟨stops_cons.2 (by decide), stops_cons.2 (by decide)⟩
      | some => exact ⟨stops_cons.2 (by decide), stops_cons.2 (by decide)⟩
    simp only [SocketAddress.ofChars?, socketV6?, ipv6?_append hip hends, scope?_append hscope,
      behind?_cons, Option.bind_eq_bind, Option.bind_some,
      port?_eq_some_iff.2 ⟨portChars, rfl, hport⟩]
    rfl

theorem isSocketAddress_of_ofChars? {a : SocketAddress}
    (h : SocketAddress.ofChars? cs = some a) : IsSocketAddress cs a := by
  unfold SocketAddress.ofChars? at h
  split at h
  · simp only [socketV6?, Option.bind_eq_bind, Option.bind_eq_some_iff, Prod.exists,
      Option.pure_def, Option.some.injEq] at h
    obtain ⟨ip, _, hip, scope, _, hscope, _, hbracket, port, hport, rfl⟩ := h
    obtain ⟨ipChars, rfl, hipChars⟩ := of_ipv6? hip
    obtain ⟨scopeChars, rfl, hscopeChars⟩ := of_scope? hscope
    obtain rfl := of_behind? hbracket
    obtain ⟨portChars, rfl, hportChars⟩ := port?_eq_some_iff.1 hport
    exact .v6 hipChars hscopeChars hportChars
  · simp only [socketV4?, Option.bind_eq_bind, Option.bind_eq_some_iff, Prod.exists,
      Option.pure_def, Option.some.injEq] at h
    obtain ⟨ip, _, hip, port, hport, rfl⟩ := h
    obtain ⟨ipChars, rfl, hipChars, -⟩ := of_ipv4? hip
    obtain ⟨portChars, rfl, hportChars⟩ := port?_eq_some_iff.1 hport
    exact .v4 hipChars hportChars

/-- **The reader reads exactly the grammar.** -/
theorem ofChars?_eq_some_iff {a : SocketAddress} :
    SocketAddress.ofChars? cs = some a ↔ IsSocketAddress cs a :=
  ⟨isSocketAddress_of_ofChars?, ofChars?_of_isSocketAddress⟩

end Socket

end CalcJournal.Net
