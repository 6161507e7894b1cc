/-
CalcJournal.Net.Reading — reading socket addresses.

The bytes of an IPv4 address have at most three digits and no leading zeros. The
groups of an IPv6 address have at most four digits; two colons stand for at least
one zero group, and an IPv4 address may stand for the last two groups. A port and a
scope may have leading zeros. Nothing may stand before or behind an address.
-/
import CalcJournal.Net.SocketAddress

namespace CalcJournal.Net

/-! ## Numbers -/

/-- Whether a character is a digit of a base of ten or sixteen. -/
def isDigitOf (base : Nat) (c : Char) : Bool :=
  c.isDigit || (base == 16 && (('a' ≤ c && c ≤ 'f') || ('A' ≤ c && c ≤ 'F')))

/-- The value of a digit. -/
def digitValue (c : Char) : Nat :=
  if c.isDigit then c.toNat - 0x30
  else if 'a' ≤ c then c.toNat - 0x61 + 10
  else c.toNat - 0x41 + 10

/-- The value of a run of digits. -/
def runValue (base : Nat) (run : List Char) : Nat :=
  run.foldl (fun value c => value * base + digitValue c) 0

/-- The run of digits at the front, if `admits` takes it and its value is below `n`, with
what follows it. -/
def bounded? (base n : Nat) (admits : List Char → Bool) (cs : List Char) :
    Option (Fin n × List Char) :=
  let run := cs.takeWhile (isDigitOf base)
  if h : runValue base run < n then
    if !run.isEmpty && admits run then
      some (⟨runValue base run, h⟩, cs.dropWhile (isDigitOf base))
    else none
  else none

/-- A byte of an IPv4 address. -/
def byte? (cs : List Char) : Option (Fin 256 × List Char) :=
  bounded? 10 256 (fun run => run.length ≤ 3 && (run.length == 1 || run.head? != some '0')) cs

/-- A group of an IPv6 address. -/
def group? (cs : List Char) : Option (Fin 65536 × List Char) :=
  bounded? 16 65536 (fun run => run.length ≤ 4) cs

/-- What follows a character at the front. -/
def behind? (c : Char) : List Char → Option (List Char)
  | d :: rest => if d = c then some rest else none
  | [] => none

/-! ## IP addresses -/

/-- An IPv4 address. -/
def ipv4? (cs : List Char) : Option (Ipv4 × List Char) := do
  let (a, cs) ← byte? cs
  let (b, cs) ← byte? (← behind? '.' cs)
  let (c, cs) ← byte? (← behind? '.' cs)
  let (d, cs) ← byte? (← behind? '.' cs)
  return (⟨a, b, c, d⟩, cs)

/-- What follows the mark before a group: nothing stands before the first, and a colon
before every other. -/
def beforeGroup? (isFirst : Bool) (cs : List Char) : Option (List Char) :=
  if isFirst then some cs else behind? ':' cs

/-- A run of groups. -/
structure GroupRun where
  groups : List (Fin 65536)
  /-- Whether the last two groups were written as an IPv4 address. -/
  endsInIpv4 : Bool
  rest : List Char

/-- The groups at the front, as many as there are but no more than `room`. -/
def readGroups (isFirst : Bool) : Nat → List Char → GroupRun
  | 0, cs => ⟨[], false, cs⟩
  | room + 1, cs =>
    match if 1 ≤ room then (beforeGroup? isFirst cs).bind ipv4? else none with
    | some (ip, rest) => ⟨[groupOfBytes ip.a ip.b, groupOfBytes ip.c ip.d], true, rest⟩
    | none =>
      match (beforeGroup? isFirst cs).bind group? with
      | none => ⟨[], false, cs⟩
      | some (g, rest) =>
        let more := readGroups false room rest
        { more with groups := g :: more.groups }

/-- The IPv6 address of a list of groups, if there are eight. -/
def Ipv6.ofList? (gs : List (Fin 65536)) : Option Ipv6 :=
  if h : gs.length = 8 then some ⟨gs, h⟩ else none

/-- An IPv6 address. -/
def ipv6? (cs : List Char) : Option (Ipv6 × List Char) :=
  let front := readGroups true 8 cs
  if front.groups.length = 8 then (Ipv6.ofList? front.groups).map fun ip => (ip, front.rest)
  else if front.endsInIpv4 then none
  else
    match front.rest with
    | ':' :: ':' :: cs =>
      let back := readGroups true (7 - front.groups.length) cs
      let zeros := 8 - front.groups.length - back.groups.length
      (Ipv6.ofList? (front.groups ++ List.replicate zeros ⟨0, by decide⟩ ++ back.groups)).map fun ip =>
        (ip, back.rest)
    | _ => none

/-! ## Socket addresses -/

/-- A scope behind its percent sign; zero when there is none. -/
def scope? : List Char → Option (Fin 4294967296 × List Char)
  | '%' :: cs => bounded? 10 4294967296 (fun _ => true) cs
  | cs => some (⟨0, by decide⟩, cs)

/-- A port behind its colon, with nothing behind it. -/
def port? (cs : List Char) : Option (Fin 65536) := do
  let (port, rest) ← bounded? 10 65536 (fun _ => true) (← behind? ':' cs)
  if rest.isEmpty then return port else none

/-- A socket address with an IPv6 address, behind the opening bracket. -/
def socketV6? (cs : List Char) : Option SocketAddress := do
  let (ip, cs) ← ipv6? cs
  let (scope, cs) ← scope? cs
  let port ← port? (← behind? ']' cs)
  return .v6 ip scope port

/-- A socket address with an IPv4 address. -/
def socketV4? (cs : List Char) : Option SocketAddress := do
  let (ip, cs) ← ipv4? cs
  let port ← port? cs
  return .v4 ip port

/-- The socket address that a text writes. -/
def SocketAddress.ofChars? : List Char → Option SocketAddress
  | '[' :: cs => socketV6? cs
  | cs => socketV4? cs

/-- The socket address that a text writes, if it writes one. -/
def SocketAddress.ofText? (s : String) : Option SocketAddress := ofChars? s.toList

end CalcJournal.Net
