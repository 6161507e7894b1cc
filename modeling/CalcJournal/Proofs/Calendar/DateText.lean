/-
CalcJournal.Proofs.Calendar.DateText — the texts of a date and time.

Numbers need no zeros in front of them, and there may be blanks at most places; a year with a sign
may have any number of digits, and so may the fraction, of which the first nine count. The texts
are given part by part, and each part has two lemmas. Its reader takes it from the front of a text,
as long as what follows does not carry it on; and what the reader has taken is such a part. They
chain in the order of the text (`readChars?_of_isLocal`, `of_readChars?`).
-/
import CalcJournal.Calendar.Rfc3339
import CalcJournal.Proofs.Calendar.LeapSecond
import CalcJournal.Proofs.Text.Capitals
import CalcJournal.Proofs.Text.Ordering
import CalcJournal.Proofs.Text.Scanning

namespace CalcJournal

/-- A day whose parts are made up of three numbers has these numbers. -/
theorem Date.of?_eq_some {year : Int} {month day : Nat} {d : Date}
    (h : of? year month day = some d) : d.year = year ∧ d.month = month ∧ d.day = day := by
  unfold of? at h
  split at h
  · obtain rfl := Option.some.inj h
    exact ⟨rfl, rfl, rfl⟩
  · simp at h

namespace Rfc3339

open Text

/-! ## 1. Numbers -/

/-- A number of at most so many digits, behind any blanks. -/
inductive IsNumber (most : Nat) : List Char → Nat → Prop
  | digits {blanks ds : List Char} (hblanks : allBlank blanks = true) (hrun : IsRun ds)
      (hlength : ds.length ≤ most) : IsNumber most (blanks ++ ds) (digitsValue ds)

/-- A year, behind any blanks. If it has a sign, it may have any number of digits. -/
inductive IsYear : List Char → Int → Prop
  | plain {cs : List Char} {n : Nat} (h : IsNumber 4 cs n) : IsYear cs n
  | plus {blanks ds : List Char} (hblanks : allBlank blanks = true) (hrun : IsRun ds) :
      IsYear (blanks ++ '+' :: ds) (digitsValue ds)
  | minus {blanks ds : List Char} (hblanks : allBlank blanks = true) (hrun : IsRun ds) :
      IsYear (blanks ++ '-' :: ds) (-(digitsValue ds : Int))

/-- A separator, behind any blanks. -/
inductive IsSeparator (c : Char) : List Char → Prop
  | behind {blanks : List Char} (hblanks : allBlank blanks = true) : IsSeparator c (blanks ++ [c])

section Numbers

variable {most n : Nat} {cs rest : List Char}

/-- A run of digits is taken whole when it is not too long and no digit follows. -/
theorem digits?_append {ds : List Char} (hrun : IsRun ds) (hlength : ds.length ≤ most)
    (hstop : Stops Char.isDigit rest) :
    digits? most (ds ++ rest) = some (digitsValue ds, rest) := by
  have hstop' : Stops Char.isDigit (rest.take (most - ds.length)) := by
    intro c hc
    cases rest with
    | nil => simp at hc
    | cons r rest =>
      cases htake : most - ds.length with
      | zero => simp [htake] at hc
      | succ n =>
        rw [htake] at hc
        exact hstop c hc
  have hdigits : ((ds ++ rest).take most).takeWhile Char.isDigit = ds := by
    rw [List.take_append, List.take_of_length_le hlength]
    exact takeWhile_prefix hrun.2 hstop'
  simp [digits?, hdigits, hrun.1]

/-- Digits that are taken are in front of the rest. -/
theorem of_digits? (h : digits? most cs = some (n, rest)) :
    ∃ ds, cs = ds ++ rest ∧ IsRun ds ∧ ds.length ≤ most ∧ digitsValue ds = n := by
  have hprefix : (cs.take most).takeWhile Char.isDigit <+: cs :=
    (List.takeWhile_prefix _).trans (List.take_prefix most cs)
  have hlength := ((cs.take most).takeWhile_sublist Char.isDigit).length_le
  have hdigits : ∀ c ∈ (cs.take most).takeWhile Char.isDigit, c.isDigit = true :=
    List.all_eq_true.1 List.all_takeWhile
  unfold digits? at h
  dsimp only at h
  split at h
  case isTrue => simp at h
  case isFalse hne =>
    obtain ⟨hvalue, hrest⟩ := Prod.mk.inj (Option.some.inj h)
    refine ⟨_, ?_, ⟨by simpa using hne, hdigits⟩, ?_, hvalue⟩
    · rw [← hrest]
      exact (List.prefix_iff_eq_append.1 hprefix).symm
    · rw [List.length_take] at hlength
      omega

theorem dropBlanks_behind {blanks ds : List Char} (hblanks : allBlank blanks = true)
    (hrun : IsRun ds) (rest : List Char) : dropBlanks (blanks ++ ds ++ rest) = ds ++ rest := by
  obtain ⟨d, more, rfl, hd⟩ := hrun.exists_cons
  rw [List.append_assoc, dropBlanks_append hblanks]
  exact dropWhile_of_stops (stops_cons.2 (isBlank_of_isDigit hd))

theorem number?_append (h : IsNumber 2 cs n) (hstop : Stops Char.isDigit rest) :
    number? (cs ++ rest) = some (n, rest) := by
  cases h with
  | digits hblanks hrun hlength =>
    rw [number?, dropBlanks_behind hblanks hrun, digits?_append hrun hlength hstop]

theorem of_number? (h : number? cs = some (n, rest)) :
    ∃ front, cs = front ++ rest ∧ IsNumber 2 front n := by
  obtain ⟨ds, hds, hrun, hlength, rfl⟩ := of_digits? h
  refine ⟨cs.takeWhile isBlank ++ ds, ?_, .digits (allBlank_takeWhile cs) hrun hlength⟩
  rw [List.append_assoc, ← hds, takeWhile_append_dropBlanks]

theorem allDigits?_append {ds : List Char} (hrun : IsRun ds) (hstop : Stops Char.isDigit rest) :
    allDigits? (ds ++ rest) = some (digitsValue ds, rest) :=
  digits?_append hrun (by simp) hstop

theorem year?_append {y : Int} (h : IsYear cs y) (hstop : Stops Char.isDigit rest) :
    year? (cs ++ rest) = some (y, rest) := by
  cases h with
  | plain h =>
    cases h with
    | @digits blanks ds hblanks hrun hlength =>
      have hread := digits?_append hrun hlength hstop
      obtain ⟨d, ds', hds, hd⟩ := hrun.exists_cons
      rw [year?, dropBlanks_behind hblanks hrun]
      -- the first character is a digit, so it is neither of the signs
      split
      case h_1 r hr =>
        rw [hds, List.cons_append] at hr
        rw [(List.cons.inj hr).1] at hd
        exact absurd hd (by decide)
      case h_2 r hr =>
        rw [hds, List.cons_append] at hr
        rw [(List.cons.inj hr).1] at hd
        exact absurd hd (by decide)
      case h_3 =>
        rw [hread]
        rfl
  | @plus blanks ds hblanks hrun =>
    have hdrop : dropBlanks (blanks ++ '+' :: ds ++ rest) = '+' :: (ds ++ rest) := by
      rw [List.append_assoc, dropBlanks_append hblanks]
      rfl
    rw [year?, hdrop]
    simp only [allDigits?_append hrun hstop, Option.map_some]
  | @minus blanks ds hblanks hrun =>
    have hdrop : dropBlanks (blanks ++ '-' :: ds ++ rest) = '-' :: (ds ++ rest) := by
      rw [List.append_assoc, dropBlanks_append hblanks]
      rfl
    rw [year?, hdrop]
    simp only [allDigits?_append hrun hstop, Option.map_some]

theorem of_year? {y : Int} (h : year? cs = some (y, rest)) :
    ∃ front, cs = front ++ rest ∧ IsYear front y := by
  have hcs := takeWhile_append_dropBlanks cs
  have hblanks := allBlank_takeWhile cs
  unfold year? at h
  generalize cs.takeWhile isBlank = blanks at hcs hblanks
  split at h
  case h_1 r hr =>
    obtain ⟨⟨n, _⟩, hread, hpair⟩ := Option.map_eq_some_iff.1 h
    obtain ⟨rfl, rfl⟩ := Prod.mk.inj hpair
    obtain ⟨ds, rfl, hrun, -, rfl⟩ := of_digits? hread
    exact ⟨blanks ++ '-' :: ds, by rw [← hcs, hr]; simp, .minus hblanks hrun⟩
  case h_2 r hr =>
    obtain ⟨⟨n, _⟩, hread, hpair⟩ := Option.map_eq_some_iff.1 h
    obtain ⟨rfl, rfl⟩ := Prod.mk.inj hpair
    obtain ⟨ds, rfl, hrun, -, rfl⟩ := of_digits? hread
    exact ⟨blanks ++ '+' :: ds, by rw [← hcs, hr]; simp, .plus hblanks hrun⟩
  case h_3 =>
    obtain ⟨⟨n, _⟩, hread, hpair⟩ := Option.map_eq_some_iff.1 h
    obtain ⟨rfl, rfl⟩ := Prod.mk.inj hpair
    obtain ⟨ds, hds, hrun, hlength, rfl⟩ := of_digits? hread
    refine ⟨blanks ++ ds, ?_, .plain (.digits hblanks hrun hlength)⟩
    rw [← hcs, hds, List.append_assoc]

theorem separator?_append {c : Char} (h : IsSeparator c cs) (hc : isBlank c = false)
    (rest : List Char) : separator? c (cs ++ rest) = some rest := by
  cases h with
  | @behind blanks hblanks =>
    have hdrop : dropBlanks (blanks ++ [c] ++ rest) = c :: rest := by
      rw [List.append_assoc, dropBlanks_append hblanks]
      exact dropWhile_of_stops (stops_cons.2 hc)
    simp only [separator?, hdrop, if_true]

theorem of_separator? {c : Char} (h : separator? c cs = some rest) :
    ∃ front, cs = front ++ rest ∧ IsSeparator c front := by
  have hcs := takeWhile_append_dropBlanks cs
  unfold separator? at h
  split at h
  case h_1 d after hafter =>
    split at h
    case isTrue hd =>
      obtain rfl := Option.some.inj h
      refine ⟨cs.takeWhile isBlank ++ [c], ?_, .behind (allBlank_takeWhile cs)⟩
      rw [List.append_assoc, List.singleton_append, ← hd, ← hafter, hcs]
    case isFalse => simp at h
  case h_2 => simp at h

/-- In front of a separator are no digits. -/
theorem IsSeparator.stops {c : Char} (h : IsSeparator c cs) (hc : c.isDigit = false)
    (rest : List Char) : Stops Char.isDigit (cs ++ rest) := by
  cases h with
  | @behind blanks hblanks =>
    cases blanks with
    | nil => exact stops_cons.2 hc
    | cons b blanks =>
      have hblank := List.all_eq_true.1 hblanks b (by simp)
      refine stops_cons.2 (Bool.eq_false_iff.2 fun hdigit => ?_)
      rw [isBlank_of_isDigit hdigit] at hblank
      simp at hblank

end Numbers

/-! ## 2. The date -/

/-- A day of the calendar: the year, the month and the day. -/
inductive IsDate : List Char → Date → Prop
  | parts {year dash month dash' day : List Char} {d : Date} (hyear : IsYear year d.year)
      (hdash : IsSeparator '-' dash) (hmonth : IsNumber 2 month d.month)
      (hdash' : IsSeparator '-' dash') (hday : IsNumber 2 day d.day) :
      IsDate (year ++ (dash ++ (month ++ (dash' ++ day)))) d

section Date

variable {cs rest : List Char} {d : Date}

theorem date?_append (h : IsDate cs d) (hstop : Stops Char.isDigit rest) :
    date? (cs ++ rest) = some ((d.year, d.month, d.day), rest) := by
  cases h with
  | parts hyear hdash hmonth hdash' hday =>
    simp only [List.append_assoc, date?, year?_append hyear (hdash.stops rfl _),
      separator?_append hdash rfl, number?_append hmonth (hdash'.stops rfl _),
      separator?_append hdash' rfl, number?_append hday hstop, Option.bind_eq_bind,
      Option.bind_some, Option.pure_def]

theorem of_date? {y : Int} {m n : Nat} (h : date? cs = some ((y, m, n), rest))
    (hd : Date.of? y m n = some d) : ∃ front, cs = front ++ rest ∧ IsDate front d := by
  simp only [date?, Option.bind_eq_bind, Option.bind_eq_some_iff, Prod.exists, Option.pure_def,
    Option.some.injEq, Prod.mk.injEq] at h
  obtain ⟨_, _, h₁, _, h₂, _, _, h₃, _, h₄, _, _, h₅, ⟨rfl, rfl, rfl⟩, rfl⟩ := h
  obtain ⟨rfl, rfl, rfl⟩ := Date.of?_eq_some hd
  obtain ⟨year, rfl, hyear⟩ := of_year? h₁
  obtain ⟨dash, rfl, hdash⟩ := of_separator? h₂
  obtain ⟨month, rfl, hmonth⟩ := of_number? h₃
  obtain ⟨dash', rfl, hdash'⟩ := of_separator? h₄
  obtain ⟨day, rfl, hday⟩ := of_number? h₅
  exact ⟨year ++ (dash ++ (month ++ (dash' ++ day))), by simp,
    .parts hyear hdash hmonth hdash' hday⟩

end Date

/-! ## 3. The time of day -/

/-- The nanoseconds of a fraction, if there is one. They are cut, not rounded. -/
inductive IsFraction : List Char → Nat → Prop
  | none : IsFraction [] 0
  | digits {ds : List Char} (hrun : IsRun ds) :
      IsFraction ('.' :: ds) (digitsValue ds * 1000000000 / Nat.pow 10 ds.length)

/-- A time of day: the hour, the minute and the second with its fraction. Its leap second, if it
lies in one, ends a minute. -/
inductive IsTime : List Char → TimeOfDay → Prop
  | parts {hour colon minute colon' second fraction : List Char} {t : TimeOfDay}
      (hhour : IsNumber 2 hour t.hour) (hcolon : IsSeparator ':' colon)
      (hminute : IsNumber 2 minute t.minute) (hcolon' : IsSeparator ':' colon')
      (hsecond : IsNumber 2 second t.writtenSecond)
      (hfraction : IsFraction fraction t.writtenNanosecond) (hregular : t.IsRegular) :
      IsTime (hour ++ (colon ++ (minute ++ (colon' ++ (second ++ fraction))))) t

/-- The first digits of a run write its value without the others. -/
theorem digitsValue_take {ds : List Char} (h : ∀ c ∈ ds, c.isDigit = true) (k : Nat) :
    digitsValue (ds.take k) = digitsValue ds / Nat.pow 10 (ds.length - k) := by
  have hparts : digitsValue ds = Nat.pow 10 (ds.length - k) * digitsValue (ds.take k)
      + digitsValue (ds.drop k) := by
    conv => lhs; rw [← List.take_append_drop k ds]
    rw [digitsValue, Nat.ofDigitChars_append, Nat.ofDigitChars_eq_ofDigitChars_zero,
      List.length_drop]
    rfl
  have hlt : digitsValue (ds.drop k) < Nat.pow 10 (ds.length - k) := by
    rw [← List.length_drop]
    exact digitsValue_lt fun c hc => h c (List.mem_of_mem_drop hc)
  have hpos : 0 < Nat.pow 10 (ds.length - k) := Nat.pow_pos (by decide)
  rw [hparts, Nat.mul_add_div hpos, Nat.div_eq_of_lt hlt, Nat.add_zero]

theorem digitsValue_take_nine {ds : List Char} (h : ∀ c ∈ ds, c.isDigit = true) :
    digitsValue ((ds ++ List.replicate 9 '0').take 9)
      = digitsValue ds * 1000000000 / Nat.pow 10 ds.length := by
  have hdigits : ∀ c ∈ ds ++ List.replicate 9 '0', c.isDigit = true := by
    intro c hc
    rcases List.mem_append.1 hc with hc | hc
    · exact h c hc
    · rw [(List.mem_replicate.1 hc).2]
      rfl
  rw [digitsValue_take hdigits, digitsValue_append_zeros, List.length_append,
    List.length_replicate, Nat.add_sub_cancel]

section Time

variable {n : Nat} {cs rest : List Char} {t : TimeOfDay}

theorem fraction?_none (hpoint : Stops (· == '.') rest) : fraction? rest = some (0, rest) := by
  cases rest with
  | nil => rfl
  | cons c rest =>
    have hc : c ≠ '.' := by simpa using stops_cons.1 hpoint
    simp [fraction?, hc]

theorem fraction?_append (h : IsFraction cs n) (hstop : Stops Char.isDigit rest)
    (hpoint : Stops (· == '.') rest) : fraction? (cs ++ rest) = some (n, rest) := by
  cases h with
  | none => exact fraction?_none hpoint
  | digits hrun =>
    have hne := hrun.1
    simp only [List.cons_append, fraction?, takeWhile_prefix hrun.2 hstop,
      dropWhile_prefix hrun.2 hstop, digitsValue_take_nine hrun.2, List.isEmpty_iff, hne, if_false]

theorem of_fraction? (h : fraction? cs = some (n, rest)) :
    ∃ front, cs = front ++ rest ∧ IsFraction front n := by
  unfold fraction? at h
  split at h
  case h_1 r =>
    dsimp only at h
    split at h
    case isTrue => simp at h
    case isFalse hne =>
      obtain ⟨rfl, rfl⟩ := Prod.mk.inj (Option.some.inj h)
      have hrun : IsRun (r.takeWhile Char.isDigit) :=
        ⟨by simpa using hne, List.all_eq_true.1 List.all_takeWhile⟩
      refine ⟨'.' :: r.takeWhile Char.isDigit, ?_, ?_⟩
      · rw [List.cons_append, List.takeWhile_append_dropWhile]
      · rw [digitsValue_take_nine hrun.2]
        exact .digits hrun
  case h_2 =>
    obtain ⟨rfl, rfl⟩ := Prod.mk.inj (Option.some.inj h)
    exact ⟨[], rfl, .none⟩

/-- A fraction does not carry on the second. -/
theorem IsFraction.stops (h : IsFraction cs n) (hstop : Stops Char.isDigit rest) :
    Stops Char.isDigit (cs ++ rest) := by
  cases h with
  | none => exact hstop
  | digits => exact stops_cons.2 rfl

theorem time?_append (h : IsTime cs t) (hstop : Stops Char.isDigit rest)
    (hpoint : Stops (· == '.') rest) :
    time? (cs ++ rest)
      = some ((t.hour, t.minute, t.writtenSecond, t.writtenNanosecond), rest) := by
  cases h with
  | parts hhour hcolon hminute hcolon' hsecond hfraction =>
    simp only [List.append_assoc, time?, number?_append hhour (hcolon.stops rfl _),
      separator?_append hcolon rfl, number?_append hminute (hcolon'.stops rfl _),
      separator?_append hcolon' rfl, number?_append hsecond (hfraction.stops hstop),
      fraction?_append hfraction hstop hpoint, Option.bind_eq_bind, Option.bind_some,
      Option.pure_def]

theorem of_time? {hour minute second nanosecond : Nat}
    (h : time? cs = some ((hour, minute, second, nanosecond), rest))
    (ht : TimeOfDay.of? hour minute second nanosecond = some t) :
    ∃ front, cs = front ++ rest ∧ IsTime front t := by
  simp only [time?, Option.bind_eq_bind, Option.bind_eq_some_iff, Prod.exists, Option.pure_def,
    Option.some.injEq, Prod.mk.injEq] at h
  obtain ⟨_, _, h₁, _, h₂, _, _, h₃, _, h₄, _, _, h₅, _, _, h₆, ⟨rfl, rfl, rfl, rfl⟩, rfl⟩ := h
  obtain ⟨rfl, rfl, rfl, rfl, hregular⟩ := TimeOfDay.of?_eq_some ht
  obtain ⟨hour, rfl, hhour⟩ := of_number? h₁
  obtain ⟨colon, rfl, hcolon⟩ := of_separator? h₂
  obtain ⟨minute, rfl, hminute⟩ := of_number? h₃
  obtain ⟨colon', rfl, hcolon'⟩ := of_separator? h₄
  obtain ⟨second, rfl, hsecond⟩ := of_number? h₅
  obtain ⟨fraction, rfl, hfraction⟩ := of_fraction? h₆
  exact ⟨hour ++ (colon ++ (minute ++ (colon' ++ (second ++ fraction)))), by simp,
    .parts hhour hcolon hminute hcolon' hsecond hfraction hregular⟩

/-- What is read of the numbers of a time is that time. -/
theorem IsTime.of?_written (h : IsTime cs t) :
    TimeOfDay.of? t.hour t.minute t.writtenSecond t.writtenNanosecond = some t := by
  cases h with
  | parts _ _ _ _ _ _ hregular =>
    rw [TimeOfDay.of?_written, TimeOfDay.asWritten_of_isRegular hregular]

end Time

/-! ## 4. The zone -/

/-- The sign of an offset. A time behind UTC has a hyphen or a typographic minus. -/
inductive IsOffsetSign : Char → Int → Prop
  | ahead : IsOffsetSign '+' 1
  | behind {c : Char} (h : c = '-' ∨ c = '\u2212') : IsOffsetSign c (-1)

/-- A zone, as the minutes by which it is ahead of UTC. -/
inductive IsZone : List Char → Int → Prop
  | utc {cs : List Char} (h : SameWord cs ['U', 'T', 'C']) : IsZone cs 0
  | zulu {c : Char} (h : c = 'Z' ∨ c = 'z') : IsZone [c] 0
  | offset {sign : Char} {unit : Int} {hours between minutes : List Char}
      (hsign : IsOffsetSign sign unit) (hhours : IsRun hours ∧ hours.length = 2)
      (hbetween : ∀ c ∈ between, (c == ':' || isBlank c) = true)
      (hminutes : IsRun minutes ∧ minutes.length = 2)
      (hrange : digitsValue hours < 24 ∧ digitsValue minutes < 60) :
      IsZone (sign :: (hours ++ (between ++ minutes)))
        (unit * (digitsValue hours * 60 + digitsValue minutes : Nat))

section Zone

variable {cs rest : List Char} {offset : Int}

theorem IsZone.offset_bounds (h : IsZone cs offset) : -1440 < offset ∧ offset < 1440 := by
  cases h with
  | utc => decide
  | zulu => decide
  | offset hsign hhours hbetween hminutes hrange =>
    cases hsign with
    | ahead => omega
    | behind => omega

/-- A zone starts with a character that carries on no time, and is no blank. -/
theorem IsZone.exists_cons (h : IsZone cs offset) : ∃ c more, cs = c :: more ∧
    c.isDigit = false ∧ (c == '.') = false ∧ isBlank c = false := by
  cases h with
  | utc h =>
    cases h with
    | @cons c _ more _ h hrest =>
      refine ⟨c, more, rfl, ?_⟩
      rcases h with rfl | ⟨hlo, -, hvalue⟩ | ⟨-, -, hvalue⟩
      · decide
      · have hlo : 65 ≤ c.toNat := hlo
        have hvalue : 85 = c.toNat + 32 := hvalue
        omega
      · obtain rfl : c = 'u' := Char.toNat_inj.1 hvalue
        decide
  | zulu h =>
    refine ⟨_, _, rfl, ?_⟩
    rcases h with rfl | rfl <;> decide
  | offset hsign =>
    refine ⟨_, _, rfl, ?_⟩
    cases hsign with
    | ahead => decide
    | behind h => rcases h with rfl | rfl <;> decide

theorem twoDigits?_append {ds : List Char} (h : IsRun ds ∧ ds.length = 2) (rest : List Char) :
    twoDigits? (ds ++ rest) = some (digitsValue ds, rest) := by
  obtain ⟨⟨-, hdigits⟩, hlength⟩ := h
  match ds, hlength with
  | [a, b], _ =>
    have ha := hdigits a (by simp)
    have hb := hdigits b (by simp)
    simp [twoDigits?, ha, hb]

theorem of_twoDigits? {n : Nat} (h : twoDigits? cs = some (n, rest)) :
    ∃ ds, cs = ds ++ rest ∧ (IsRun ds ∧ ds.length = 2) ∧ digitsValue ds = n := by
  unfold twoDigits? at h
  split at h
  case h_1 a b rest =>
    split at h
    case isTrue hdigits =>
      obtain ⟨rfl, rfl⟩ := Prod.mk.inj (Option.some.inj h)
      rw [Bool.and_eq_true] at hdigits
      refine ⟨[a, b], rfl, ⟨⟨by simp, ?_⟩, rfl⟩, rfl⟩
      simpa using hdigits
    case isFalse => simp at h
  case h_2 => simp at h

theorem offsetMinutes?_append {hours between minutes : List Char}
    (hhours : IsRun hours ∧ hours.length = 2)
    (hbetween : ∀ c ∈ between, (c == ':' || isBlank c) = true)
    (hminutes : IsRun minutes ∧ minutes.length = 2)
    (hrange : digitsValue hours < 24 ∧ digitsValue minutes < 60) (rest : List Char) :
    offsetMinutes? (hours ++ (between ++ minutes) ++ rest)
      = some (digitsValue hours * 60 + digitsValue minutes, rest) := by
  have hstop : Stops (fun c => c == ':' || isBlank c) (minutes ++ rest) := by
    obtain ⟨d, more, rfl, hd⟩ := hminutes.1.exists_cons
    refine stops_cons.2 ?_
    rw [isBlank_of_isDigit hd, Bool.or_false, beq_eq_false_iff_ne]
    rintro rfl
    simp [Char.isDigit] at hd
  simp only [offsetMinutes?, List.append_assoc, twoDigits?_append hhours,
    dropWhile_prefix hbetween hstop, twoDigits?_append hminutes, Option.bind_eq_bind,
    Option.bind_some, hrange, and_self, if_true, Option.pure_def]

theorem of_offsetMinutes? {n : Nat} (h : offsetMinutes? cs = some (n, rest)) :
    ∃ hours between minutes, cs = hours ++ (between ++ minutes) ++ rest ∧
      (IsRun hours ∧ hours.length = 2) ∧ (∀ c ∈ between, (c == ':' || isBlank c) = true) ∧
      (IsRun minutes ∧ minutes.length = 2) ∧
      (digitsValue hours < 24 ∧ digitsValue minutes < 60) ∧
      digitsValue hours * 60 + digitsValue minutes = n := by
  simp only [offsetMinutes?, Option.bind_eq_bind, Option.bind_eq_some_iff, Prod.exists] at h
  obtain ⟨_, after, hhours, _, _, hminutes, h⟩ := h
  split at h
  case isFalse => simp at h
  case isTrue hrange =>
    obtain ⟨rfl, rfl⟩ := Prod.mk.inj (Option.some.inj h)
    obtain ⟨hours, rfl, hrun, rfl⟩ := of_twoDigits? hhours
    obtain ⟨minutes, htail, hrun', rfl⟩ := of_twoDigits? hminutes
    refine ⟨hours, after.takeWhile fun c => c == ':' || isBlank c, minutes, ?_, hrun,
      List.all_eq_true.1 List.all_takeWhile, hrun', ⟨hrange.2, hrange.1⟩, rfl⟩
    rw [List.append_assoc, List.append_assoc, ← htail, List.takeWhile_append_dropWhile]

theorem sameWord_utc_iff (cs : List Char) :
    SameWord cs ['U', 'T', 'C'] ↔ cs.map Char.toUpper = ['U', 'T', 'C'] := by
  refine sameWord_iff_map fun d hd => toUpper_eq_iff ?_
  simp only [List.mem_cons, List.not_mem_nil, or_false] at hd
  rcases hd with rfl | rfl | rfl <;> decide

/-- A zone that is one of those with a letter or a sign of its own is no `UTC`. -/
theorem take_ne_utc {c : Char} (h : c.toUpper ≠ 'U') (rest : List Char) :
    ((c :: rest).take 3).map Char.toUpper ≠ ['U', 'T', 'C'] := by
  intro heq
  rw [List.take_succ_cons, List.map_cons] at heq
  exact h (List.cons.inj heq).1

theorem zone?_append (h : IsZone cs offset) (rest : List Char) :
    zone? (cs ++ rest) = some (offset, rest) := by
  cases h with
  | utc h =>
    have hupper := (sameWord_utc_iff cs).1 h
    have hlength : cs.length = 3 := by
      have := congrArg List.length hupper
      rwa [List.length_map] at this
    unfold zone?
    rw [List.take_left' hlength, List.drop_left' hlength, if_pos hupper]
  | @zulu c h =>
    have hupper : c.toUpper ≠ 'U' := by rcases h with rfl | rfl <;> decide
    exact (if_neg (take_ne_utc hupper rest)).trans (if_pos h)
  | @offset sign unit hours between minutes hsign hhours hbetween hminutes hrange =>
    have hread := offsetMinutes?_append hhours hbetween hminutes hrange rest
    have hupper : sign.toUpper ≠ 'U' := by
      cases hsign with
      | ahead => decide
      | behind h => rcases h with rfl | rfl <;> decide
    refine (if_neg (take_ne_utc hupper _)).trans ?_
    simp only [List.append_assoc] at hread
    cases hsign with
    | ahead => simp [hread]
    | behind h => rcases h with rfl | rfl <;> simp [hread, isOffsetMinus]

/-- A sign and the minutes of an offset are a zone. -/
theorem of_offset {sign : Char} {unit : Int} {n : Nat} (hsign : IsOffsetSign sign unit)
    (h : offsetMinutes? cs = some (n, rest)) (hoffset : unit * n = offset) :
    ∃ front, sign :: cs = front ++ rest ∧ IsZone front offset := by
  obtain ⟨hours, between, minutes, rfl, hhours, hbetween, hminutes, hrange, rfl⟩ :=
    of_offsetMinutes? h
  refine ⟨sign :: (hours ++ (between ++ minutes)), rfl, ?_⟩
  rw [← hoffset]
  exact .offset hsign hhours hbetween hminutes hrange

theorem of_zone? (h : zone? cs = some (offset, rest)) :
    ∃ front, cs = front ++ rest ∧ IsZone front offset := by
  unfold zone? at h
  split at h
  case isTrue hupper =>
    obtain ⟨rfl, rfl⟩ := Prod.mk.inj (Option.some.inj h)
    exact ⟨cs.take 3, (List.take_append_drop 3 cs).symm, .utc ((sameWord_utc_iff _).2 hupper)⟩
  case isFalse =>
    cases cs with
    | nil => simp at h
    | cons c after =>
      dsimp only at h
      split at h
      case isTrue hzulu =>
        obtain ⟨rfl, rfl⟩ := Prod.mk.inj (Option.some.inj h)
        exact ⟨[c], rfl, .zulu hzulu⟩
      split at h
      case isTrue hplus =>
        obtain ⟨⟨n, _⟩, hread, hpair⟩ := Option.map_eq_some_iff.1 h
        obtain ⟨rfl, rfl⟩ := Prod.mk.inj hpair
        exact of_offset (hplus ▸ .ahead) hread (Int.one_mul _)
      split at h
      case isTrue hminus =>
        obtain ⟨⟨n, _⟩, hread, hpair⟩ := Option.map_eq_some_iff.1 h
        obtain ⟨rfl, rfl⟩ := Prod.mk.inj hpair
        have hsign : c = '-' ∨ c = '\u2212' := by simpa [isOffsetMinus] using hminus
        exact of_offset (.behind hsign) hread (Int.neg_one_mul _)
      case isFalse => simp at h

end Zone

/-! ## 5. Dates and times -/

/-- A date and a time with a mark between them, and the zone. -/
inductive IsLocal : List Char → Date → TimeOfDay → Int → Prop
  | parts {date time blanks zone trail : List Char} {mark : Char} {d : Date} {clock : TimeOfDay}
      {offset : Int} (hdate : IsDate date d) (hmark : mark = 'T' ∨ mark = 't' ∨ mark = ' ')
      (htime : IsTime time clock) (hblanks : allBlank blanks = true) (hzone : IsZone zone offset)
      (htrail : allBlank trail = true) :
      IsLocal (date ++ mark :: (time ++ (blanks ++ (zone ++ trail)))) d clock offset

section Local

variable {cs : List Char} {d : Date} {clock : TimeOfDay} {offset : Int}

theorem IsLocal.offset_bounds (h : IsLocal cs d clock offset) : -1440 < offset ∧ offset < 1440 := by
  cases h with
  | parts _ _ _ _ hzone _ => exact hzone.offset_bounds

/-- A date and time is read, and turned into UTC. -/
theorem readChars?_of_isLocal (h : IsLocal cs d clock offset) :
    readChars? cs = Instant.ofLocal? d clock offset := by
  cases h with
  | @parts date time blanks zone trail mark _ _ _ hdate hmark htime hblanks hzone htrail =>
    have hmarkDigit : Stops Char.isDigit (mark :: (time ++ (blanks ++ (zone ++ trail)))) := by
      rcases hmark with rfl | rfl | rfl <;> exact stops_cons.2 rfl
    have hmarked : isTimeMark mark = true := by
      rcases hmark with rfl | rfl | rfl <;> rfl
    obtain ⟨c, more, hc, hdigit, hpoint, hblank⟩ := hzone.exists_cons
    -- what follows the time carries on neither the second nor a fraction
    have hbehind {p : Char → Bool} (hzoneStart : p c = false)
        (hblanksOnly : ∀ b, isBlank b = true → p b = false) :
        Stops p (blanks ++ (zone ++ trail)) := by
      cases blanks with
      | nil =>
        rw [hc]
        exact stops_cons.2 hzoneStart
      | cons b blanks => exact stops_cons.2 (hblanksOnly b (List.all_eq_true.1 hblanks b (by simp)))
    have hstopDigit := hbehind hdigit fun b hb => Bool.eq_false_iff.2 fun hd => by
      simp [isBlank_of_isDigit hd] at hb
    have hstopPoint : Stops (· == '.') (blanks ++ (zone ++ trail)) :=
      hbehind hpoint fun b hb => beq_eq_false_iff_ne.2 fun hb' => by
        rw [hb'] at hb
        exact absurd hb (by decide)
    have hzoneStart : dropBlanks (blanks ++ (zone ++ trail)) = zone ++ trail := by
      rw [dropBlanks_append hblanks, hc]
      exact dropWhile_of_stops (stops_cons.2 hblank)
    rw [readChars?, date?_append hdate hmarkDigit]
    simp only [Option.bind_eq_bind, Option.bind_some, hmarked,
      time?_append htime hstopDigit hstopPoint, hzoneStart, zone?_append hzone, htrail,
      Date.of?_parts, htime.of?_written, Bool.not_true, Bool.false_eq_true, if_false]

/-- What is read is a date and time. -/
theorem of_readChars? {t : Instant} (h : readChars? cs = some t) :
    ∃ d clock offset, IsLocal cs d clock offset ∧ Instant.ofLocal? d clock offset = some t := by
  simp only [readChars?, Option.bind_eq_bind, Option.bind_eq_some_iff, Prod.exists] at h
  obtain ⟨_, _, _, after, h₁, h⟩ := h
  split at h
  case h_1 => simp at h
  case h_2 mark after =>
    split at h
    case isTrue => simp at h
    case isFalse hmark =>
      simp only [Option.bind_eq_some_iff, Prod.exists] at h
      obtain ⟨_, _, _, _, behind, h₂, offset, trail, h₃, h⟩ := h
      split at h
      case isTrue => simp at h
      case isFalse htrail =>
        simp only [Option.bind_eq_some_iff] at h
        obtain ⟨d, hd, clock, hclock, h⟩ := h
        obtain ⟨date, rfl, hdate⟩ := of_date? h₁ hd
        obtain ⟨time, rfl, htime⟩ := of_time? h₂ hclock
        obtain ⟨zone, hbehind, hzone⟩ := of_zone? h₃
        have hmarked : isTimeMark mark = true := by simpa using hmark
        simp only [isTimeMark, Bool.or_eq_true, beq_iff_eq, or_assoc] at hmarked
        rw [← takeWhile_append_dropBlanks behind, hbehind]
        exact ⟨d, clock, offset, .parts hdate hmarked htime (allBlank_takeWhile behind) hzone
          (by simpa using htrail), h⟩

/-- What is read is regular: it is second 60 that tells a leap second. -/
theorem isRegular_of_readChars? {t : Instant} (h : readChars? cs = some t) :
    t.IsRegular := by
  obtain ⟨d, clock, offset, hlocal, ht⟩ := of_readChars? h
  obtain ⟨e, -, rfl⟩ := Option.map_eq_some_iff.1 ht
  obtain ⟨-, -, ⟨-, -, -, -, -, -, hregular⟩, -, -, -⟩ := hlocal
  exact hregular

end Local

end Rfc3339

end CalcJournal
