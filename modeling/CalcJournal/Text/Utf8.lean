/-
CalcJournal.Text.Utf8 — characters as bytes and back.

`encode` writes each character in its UTF-8 form of one to four bytes. `pieces`
reads bytes back as far as they are UTF-8: each piece is a character, or a stray
byte that belongs to none. Only the shortest form of a character counts, and no
surrogate is a character, so what `encode` writes is read back without strays, and
`decode?` accepts nothing else.
-/

namespace CalcJournal.Utf8

/-! ## Writing -/

/-- The UTF-8 form of a text. -/
def encode (cs : List Char) : List UInt8 := cs.flatMap String.utf8EncodeChar

/-! ## Reading -/

/-- A byte that continues a character. -/
def isTail (b : UInt8) : Bool := 0x80 ≤ b.toNat && b.toNat < 0xC0

/-- The character of a code point, which takes `width` bytes, if it is one that needs more
than `below` says. -/
def ofCode? (width below code : Nat) : Option (Char × Nat) :=
  if h : below ≤ code ∧ code.isValidChar then some (Char.ofNatAux code h.2, width) else none

/-- The character at the front of a sequence of bytes, with the number of bytes it takes. -/
def front? : List UInt8 → Option (Char × Nat)
  | [] => none
  | a :: rest =>
    let n := a.toNat
    if n < 0x80 then ofCode? 1 0 n
    else if n < 0xE0 then
      match rest with
      | b :: _ =>
        if 0xC0 ≤ n && isTail b then ofCode? 2 0x80 ((n - 0xC0) * 0x40 + (b.toNat - 0x80))
        else none
      | _ => none
    else if n < 0xF0 then
      match rest with
      | b :: c :: _ =>
        if isTail b && isTail c then
          ofCode? 3 0x800 ((n - 0xE0) * 0x1000 + (b.toNat - 0x80) * 0x40 + (c.toNat - 0x80))
        else none
      | _ => none
    else
      match rest with
      | b :: c :: d :: _ =>
        if n < 0xF8 && isTail b && isTail c && isTail d then
          ofCode? 4 0x10000 ((n - 0xF0) * 0x40000 + (b.toNat - 0x80) * 0x1000
            + (c.toNat - 0x80) * 0x40 + (d.toNat - 0x80))
        else none
      | _ => none

/-- A character, or a stray byte. -/
abbrev Piece := Option Char

/-- Reads pieces behind `skipped` bytes that belong to the character before. -/
def piecesFrom : Nat → List UInt8 → List Piece
  | _, [] => []
  | skipped + 1, _ :: rest => piecesFrom skipped rest
  | 0, b :: rest =>
    match front? (b :: rest) with
    | some (c, width) => some c :: piecesFrom (width - 1) rest
    | none => none :: piecesFrom 0 rest

/-- The characters and stray bytes of a sequence of bytes. -/
def pieces (bytes : List UInt8) : List Piece := piecesFrom 0 bytes

/-- The pieces as a text, if there is no stray byte among them. -/
def text? (ps : List Piece) : Option (List Char) := ps.mapM id

/-- The text whose UTF-8 form the bytes are. -/
def decode? (bytes : List UInt8) : Option (List Char) := text? (pieces bytes)

end CalcJournal.Utf8
