/-
CalcJournal.Json.Token — the tokens of a JSON text.

A text is a sequence of brackets, separators, words, numbers and strings. A string
token holds its text, or nothing when its bytes or escapes are no text. Whatever
starts no token is the one token `broken`, behind which nothing is read.

A document is written as the texts of its tokens, one after the other. A string is
written with the two-character escapes where JSON has one, and with four
hexadecimal digits for the other controls.
-/
import CalcJournal.Json.Number

namespace CalcJournal.Json

/-! ## Tokens -/

/-- A token of a JSON text. -/
inductive Token where
  | openObject
  | closeObject
  | openArray
  | closeArray
  | comma
  | colon
  | null
  | bool (b : Bool)
  | number (n : Number)
  | string (text : Option (List Char))
  | broken
  deriving DecidableEq, Repr

/-! ## Writing -/

/-- The lower-case hexadecimal digit of a value below sixteen. -/
def hexChar (n : Nat) : Char := Nat.digitChar n

/-- A character as it stands in a string. -/
def escapedChar (c : Char) : List Char :=
  if c = '"' then ['\\', '"']
  else if c = '\\' then ['\\', '\\']
  else if c = '\n' then ['\\', 'n']
  else if c = '\r' then ['\\', 'r']
  else if c = '\t' then ['\\', 't']
  else if c = '\x08' then ['\\', 'b']
  else if c = '\x0c' then ['\\', 'f']
  else if c.toNat < 0x20 then
    ['\\', 'u', '0', '0', hexChar (c.toNat / 16), hexChar (c.toNat % 16)]
  else [c]

/-- A text as a string. -/
def stringChars (cs : List Char) : List Char := '"' :: (cs.flatMap escapedChar ++ ['"'])

/-- The characters of a token; what cannot be written has none. -/
def Token.chars : Token → List Char
  | .openObject => ['{']
  | .closeObject => ['}']
  | .openArray => ['[']
  | .closeArray => [']']
  | .comma => [',']
  | .colon => [':']
  | .null => ['n', 'u', 'l', 'l']
  | .bool true => ['t', 'r', 'u', 'e']
  | .bool false => ['f', 'a', 'l', 's', 'e']
  | .number n => n.chars
  | .string (some cs) => stringChars cs
  | .string none => []
  | .broken => []

/-- A document, as the text of its tokens. -/
def write (ts : List Token) : List Char := ts.flatMap Token.chars

/-- The token of a text. -/
def Token.ofString (s : String) : Token := .string (some s.toList)

end CalcJournal.Json
