/-
CalcJournal.Net.SocketAddress — addresses to listen on, and their texts.

A socket address is an IP address with a port. An IPv6 address is written with its
longest run of zero groups left out, the first of equally long ones, if it is longer
than one group; an address that stands for an IPv4 address is written as that one. A
scope other than zero follows a percent sign.
-/
import CalcJournal.Text.Digits

namespace CalcJournal.Net

/-! ## Addresses -/

/-- The four bytes of an IPv4 address. -/
structure Ipv4 where
  a : Fin 256
  b : Fin 256
  c : Fin 256
  d : Fin 256
  deriving DecidableEq, Repr

/-- The eight groups of an IPv6 address. -/
structure Ipv6 where
  groups : List (Fin 65536)
  length_groups : groups.length = 8
  deriving DecidableEq

/-- An address to listen on. -/
inductive SocketAddress where
  | v4 (ip : Ipv4) (port : Fin 65536)
  | v6 (ip : Ipv6) (scope : Fin 4294967296) (port : Fin 65536)
  deriving DecidableEq

/-! ## Texts of IPv4 addresses -/

/-- The text of an IPv4 address. -/
def Ipv4.chars (ip : Ipv4) : List Char :=
  Text.decimal ip.a ++ '.' :: (Text.decimal ip.b ++ '.' ::
    (Text.decimal ip.c ++ '.' :: Text.decimal ip.d))

/-- The high byte of a group. -/
def highByte (g : Fin 65536) : Fin 256 := ⟨g.val / 256, by omega⟩

/-- The low byte of a group. -/
def lowByte (g : Fin 65536) : Fin 256 := ⟨g.val % 256, by omega⟩

/-- The group of two bytes. -/
def groupOfBytes (high low : Fin 256) : Fin 65536 := ⟨high.val * 256 + low.val, by omega⟩

/-- The IPv4 address that two groups hold. -/
def Ipv4.ofGroups (g h : Fin 65536) : Ipv4 := ⟨highByte g, lowByte g, highByte h, lowByte h⟩

/-! ## Texts of IPv6 addresses -/

/-- The text of a group. -/
def groupChars (g : Fin 65536) : List Char := Nat.toDigits 16 g

/-- Groups with colons between them. -/
def groupListChars : List (Fin 65536) → List Char
  | [] => []
  | [g] => groupChars g
  | g :: gs => groupChars g ++ ':' :: groupListChars gs

/-- How many zero groups follow each other from a place on. -/
def zerosFrom (gs : List (Fin 65536)) (start : Nat) : Nat :=
  ((gs.drop start).takeWhile fun g => g.val == 0).length

/-- Where the longest run of zero groups starts, the first of equally long ones. -/
def longestZeros (gs : List (Fin 65536)) : Nat :=
  (List.range gs.length).foldl
    (fun best start => if zerosFrom gs best < zerosFrom gs start then start else best) 0

/-- The IPv4 address that an IPv6 address stands for. -/
def Ipv6.mapped? (ip : Ipv6) : Option Ipv4 :=
  match ip.groups with
  | [a, b, c, d, e, f, g, h] =>
    if [a, b, c, d, e, f].map Fin.val = [0, 0, 0, 0, 0, 65535] then some (.ofGroups g h) else none
  | _ => none

/-- The text of an IPv6 address. -/
def Ipv6.chars (ip : Ipv6) : List Char :=
  match ip.mapped? with
  | some v4 => "::ffff:".toList ++ v4.chars
  | none =>
    let start := longestZeros ip.groups
    let count := zerosFrom ip.groups start
    if 1 < count then
      groupListChars (ip.groups.take start) ++ ':' :: ':' ::
        groupListChars (ip.groups.drop (start + count))
    else groupListChars ip.groups

/-! ## Texts of socket addresses -/

/-- The text of a scope. -/
def scopeChars (scope : Fin 4294967296) : List Char :=
  if scope.val = 0 then [] else '%' :: Text.decimal scope

/-- The text of a socket address. -/
def SocketAddress.chars : SocketAddress → List Char
  | .v4 ip port => ip.chars ++ ':' :: Text.decimal port
  | .v6 ip scope port =>
    '[' :: (ip.chars ++ (scopeChars scope ++ ']' :: ':' :: Text.decimal port))

/-- The text of a socket address, as a string. -/
def SocketAddress.text (s : SocketAddress) : String := String.ofList s.chars

end CalcJournal.Net
