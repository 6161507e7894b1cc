/-
CalcJournal.Json.Lexer — from the pieces of a text to its tokens.

Tokens are read from left to right, with space, tab, line feed and carriage
return skipped before each. A string runs to its closing quote; it must not hold
raw controls, and its escapes must be JSON's. Whether it is a text, that is free of
stray bytes and of surrogates without their partner, is settled afterwards, because
only a string that is used has to be one. A number is read at full length and must
follow JSON's grammar. The first piece that starts no token ends the sequence.
-/
import CalcJournal.Json.Token
import CalcJournal.Text.Utf8

namespace CalcJournal.Json

open Utf8 (Piece)

/-! ## Strings -/

/-- What a string is made of: characters, code units written as escapes, stray bytes. -/
inductive StringItem where
  | char (c : Char)
  | unit (code : Nat)
  | stray
  deriving DecidableEq, Repr

/-- The value of a hexadecimal digit. -/
def hexValue? (c : Char) : Option Nat :=
  if c.isDigit then some (c.toNat - 0x30)
  else if 'a' ≤ c ∧ c ≤ 'f' then some (c.toNat - 0x61 + 10)
  else if 'A' ≤ c ∧ c ≤ 'F' then some (c.toNat - 0x41 + 10)
  else none

/-- The value of four hexadecimal digits. -/
def hexQuad? : Piece → Piece → Piece → Piece → Option Nat
  | some a, some b, some c, some d => do
    let a ← hexValue? a
    let b ← hexValue? b
    let c ← hexValue? c
    let d ← hexValue? d
    return ((a * 16 + b) * 16 + c) * 16 + d
  | _, _, _, _ => none

/-- The character that a letter stands for behind a backslash. -/
def shortEscape? : Char → Option Char
  | '"' => some '"'
  | '\\' => some '\\'
  | '/' => some '/'
  | 'b' => some '\x08'
  | 'f' => some '\x0c'
  | 'n' => some '\n'
  | 'r' => some '\r'
  | 't' => some '\t'
  | _ => none

/-- The items of a string up to its closing quote, with what follows the quote. -/
def stringItems? : List Piece → Option (List StringItem × List Piece)
  | [] => none
  | none :: rest => (stringItems? rest).map fun (items, after) => (.stray :: items, after)
  | some '"' :: rest => some ([], rest)
  | some '\\' :: some 'u' :: a :: b :: c :: d :: rest =>
    match hexQuad? a b c d with
    | none => none
    | some code => (stringItems? rest).map fun (items, after) => (.unit code :: items, after)
  | some '\\' :: some e :: rest =>
    match shortEscape? e with
    | none => none
    | some c => (stringItems? rest).map fun (items, after) => (.char c :: items, after)
  | some '\\' :: _ => none
  | some c :: rest =>
    if c.toNat < 0x20 then none
    else (stringItems? rest).map fun (items, after) => (.char c :: items, after)

/-- The text of a string's items: two surrogates that belong together are one character,
and a surrogate on its own or a stray byte makes it no text. -/
def itemsText? : List StringItem → Option (List Char)
  | [] => some []
  | .char c :: rest => (itemsText? rest).map (c :: ·)
  | .stray :: _ => none
  | .unit n :: rest =>
    if h : n.isValidChar then (itemsText? rest).map (Char.ofNatAux n h :: ·)
    else
      match rest with
      | .unit m :: rest =>
        if n < 0xDC00 ∧ 0xDC00 ≤ m ∧ m < 0xE000 then
          (itemsText? rest).map
            (Char.ofNat (0x10000 + (n - 0xD800) * 0x400 + (m - 0xDC00)) :: ·)
        else none
      | _ => none

/-! ## Numbers -/

/-- The digits at the front, with what follows them. -/
def takeDigits : List Piece → List Char × List Piece
  | some c :: rest =>
    if c.isDigit then
      let (ds, after) := takeDigits rest
      (c :: ds, after)
    else ([], some c :: rest)
  | ps => ([], ps)

/-- The whole digits of a number: a lone zero, or digits that start with none. -/
def whole? (ps : List Piece) : Option (List Char × List Piece) :=
  match takeDigits ps with
  | ([], _) => none
  | ('0' :: _ :: _, _) => none
  | taken => some taken

/-- The fraction digits of a number; none when no point follows. -/
def fraction? : List Piece → Option (List Char × List Piece)
  | some '.' :: rest =>
    match takeDigits rest with
    | ([], _) => none
    | taken => some taken
  | ps => some ([], ps)

/-- Whether an exponent is negative, with what follows its sign if it has one. -/
def powerSign : List Piece → Bool × List Piece
  | some '-' :: rest => (true, rest)
  | some '+' :: rest => (false, rest)
  | ps => (false, ps)

/-- The exponent behind its letter: an optional sign and digits. -/
def power? (ps : List Piece) : Option ((Bool × List Char) × List Piece) :=
  match takeDigits (powerSign ps).2 with
  | ([], _) => none
  | (ds, after) => some (((powerSign ps).1, ds), after)

/-- The exponent of a number, if its letter follows. -/
def exponent? : List Piece → Option (Option (Bool × List Char) × List Piece)
  | some 'e' :: rest | some 'E' :: rest => (power? rest).map fun (p, after) => (some p, after)
  | ps => some (none, ps)

/-- The number behind its sign. -/
def unsigned? (negative : Bool) (ps : List Piece) : Option (Number × List Piece) := do
  let (whole, ps) ← whole? ps
  let (fraction, ps) ← fraction? ps
  let (exponent, ps) ← exponent? ps
  return (⟨negative, whole, fraction, exponent⟩, ps)

/-! ## Tokens -/

/-- The characters skipped between tokens. -/
def isSpace (c : Char) : Bool := c == ' ' || c == '\t' || c == '\n' || c == '\r'

/-- The token that starts with `c`, with what follows it. -/
def token? (c : Char) (rest : List Piece) : Option (Token × List Piece) :=
  match c with
  | '{' => some (.openObject, rest)
  | '}' => some (.closeObject, rest)
  | '[' => some (.openArray, rest)
  | ']' => some (.closeArray, rest)
  | ',' => some (.comma, rest)
  | ':' => some (.colon, rest)
  | 'n' =>
    match rest with
    | some 'u' :: some 'l' :: some 'l' :: after => some (.null, after)
    | _ => none
  | 't' =>
    match rest with
    | some 'r' :: some 'u' :: some 'e' :: after => some (.bool true, after)
    | _ => none
  | 'f' =>
    match rest with
    | some 'a' :: some 'l' :: some 's' :: some 'e' :: after => some (.bool false, after)
    | _ => none
  | '"' => (stringItems? rest).map fun (items, after) => (.string (itemsText? items), after)
  | '-' => (unsigned? true rest).map fun (n, after) => (.number n, after)
  | _ => (unsigned? false (some c :: rest)).map fun (n, after) => (.number n, after)

/-! ## Reading a token shortens the text -/

theorem length_of_stringItems? {ps after : List Piece} {items : List StringItem}
    (h : stringItems? ps = some (items, after)) : after.length ≤ ps.length := by
  fun_induction stringItems? ps generalizing items after <;>
    simp_all only [Option.map_eq_some_iff, Prod.exists, Prod.mk.injEq, List.length_cons,
      reduceCtorEq, Option.some.injEq] <;> grind

theorem length_takeDigits (ps : List Piece) :
    (takeDigits ps).1.length + (takeDigits ps).2.length = ps.length := by
  fun_induction takeDigits ps <;> simp_all
  omega

theorem length_of_whole? {ps after : List Piece} {ds : List Char}
    (h : whole? ps = some (ds, after)) : after.length < ps.length := by
  have hlen := length_takeDigits ps
  unfold whole? at h
  split at h
  · simp at h
  · simp at h
  · rename_i hne _
    rw [Option.some.inj h] at hlen hne
    dsimp only at hlen
    have hpos : 0 < ds.length := List.length_pos_iff.2 fun h0 => hne after (by rw [h0])
    omega

theorem length_of_fraction? {ps after : List Piece} {ds : List Char}
    (h : fraction? ps = some (ds, after)) : after.length ≤ ps.length := by
  unfold fraction? at h
  split at h
  · rename_i rest
    have hlen := length_takeDigits rest
    split at h
    · simp at h
    · rw [Option.some.inj h] at hlen
      dsimp only at hlen
      simp only [List.length_cons]; omega
  · simp_all

theorem length_powerSign_le (ps : List Piece) : (powerSign ps).2.length ≤ ps.length := by
  fun_cases powerSign ps <;> simp

theorem length_of_power? {ps after : List Piece} {e : Bool × List Char}
    (h : power? ps = some (e, after)) : after.length ≤ ps.length := by
  have hlen := length_takeDigits (powerSign ps).2
  have hsign := length_powerSign_le ps
  unfold power? at h
  split at h
  · simp at h
  · simp only [Option.some.injEq, Prod.mk.injEq] at h
    simp_all only; omega

theorem length_of_exponent? {ps after : List Piece} {e : Option (Bool × List Char)}
    (h : exponent? ps = some (e, after)) : after.length ≤ ps.length := by
  unfold exponent? at h
  split at h
  · obtain ⟨⟨p, rest⟩, hp, heq⟩ := Option.map_eq_some_iff.1 h
    have := length_of_power? hp
    simp_all only [Prod.mk.injEq, List.length_cons]; omega
  · obtain ⟨⟨p, rest⟩, hp, heq⟩ := Option.map_eq_some_iff.1 h
    have := length_of_power? hp
    simp_all only [Prod.mk.injEq, List.length_cons]; omega
  · simp_all

/-- A number has at least one character. -/
theorem length_of_unsigned? {negative : Bool} {ps after : List Piece} {n : Number}
    (h : unsigned? negative ps = some (n, after)) : after.length < ps.length := by
  simp only [unsigned?, Option.bind_eq_bind, Option.bind_eq_some_iff, Prod.exists,
    Option.pure_def, Option.some.injEq, Prod.mk.injEq] at h
  obtain ⟨whole, ps1, h1, fraction, ps2, h2, e, ps3, h3, -, rfl⟩ := h
  have := length_of_whole? h1
  have := length_of_fraction? h2
  have := length_of_exponent? h3
  omega

/-- A token has at least the character that it starts with. -/
theorem length_of_token? {c : Char} {rest after : List Piece} {t : Token}
    (h : token? c rest = some (t, after)) : after.length ≤ rest.length := by
  unfold token? at h
  split at h
  case h_10 =>
    obtain ⟨⟨items, r⟩, hi, heq⟩ := Option.map_eq_some_iff.1 h
    have := length_of_stringItems? hi
    simp_all
  case h_11 =>
    obtain ⟨⟨n, r⟩, hn, heq⟩ := Option.map_eq_some_iff.1 h
    have := length_of_unsigned? hn
    simp only [Prod.mk.injEq] at heq; rw [← heq.2]; omega
  case h_12 =>
    obtain ⟨⟨n, r⟩, hn, heq⟩ := Option.map_eq_some_iff.1 h
    have := length_of_unsigned? hn
    simp only [Prod.mk.injEq] at heq; rw [← heq.2]
    simp only [List.length_cons] at this; omega
  case h_7 | h_8 | h_9 =>
    split at h
    · simp only [Option.some.injEq, Prod.mk.injEq] at h
      rw [← h.2]; simp only [List.length_cons]; omega
    · simp at h
  all_goals simp_all

/-! ## Texts -/

/-- The tokens of a text; the first piece that starts none ends them. -/
def lex (ps : List Piece) : List Token :=
  match ps with
  | [] => []
  | none :: _ => [.broken]
  | some c :: rest =>
    if isSpace c then lex rest
    else
      match _h : token? c rest with
      | none => [.broken]
      | some (t, after) => t :: lex after
termination_by ps.length
decreasing_by
  · simp
  · have := length_of_token? _h
    simp only [List.length_cons]; omega

/-- The tokens of a sequence of bytes. -/
def lexBytes (bytes : List UInt8) : List Token := lex (Utf8.pieces bytes)

/-- The tokens of a text without stray bytes. -/
def lexText (cs : List Char) : List Token := lex (cs.map some)

end CalcJournal.Json
