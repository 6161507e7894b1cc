/-
CalcJournal.Http.Target — the targets of requests, and the paths in them.

A target takes one of three forms: a path from the root on, with perhaps a query and
a fragment behind it; the same behind a scheme and an authority; or an authority
alone, which has no path. A star counts as such an authority. Each part has
characters of its own, but a fragment may hold anything.

The path is cut into segments at its slashes as it is written, before any percent
signs are read.
-/

namespace CalcJournal.Http.Target

/-! ## Characters -/

/-- The characters of a scheme. -/
def isSchemeChar (c : Char) : Bool := c.isAlphanum || "+-.~".toList.contains c

/-- The characters of an authority that stand for themselves. -/
def isAuthorityChar (c : Char) : Bool := c.isAlphanum || "!$&'()*+,-._;=~".toList.contains c

/-- The characters that are neither the space nor an ASCII control. -/
def isGraphic (c : Char) : Bool := 0x20 < c.toNat && c.toNat != 0x7F

/-- The characters of a path, a question mark and a number sign apart, which end it. -/
def isPathChar (c : Char) : Bool := isGraphic c && !"<>`".toList.contains c

/-- The characters of a query, a number sign apart, which ends it. -/
def isQueryChar (c : Char) : Bool := isGraphic c && !"\"<>".toList.contains c

/-- The characters that end an authority. -/
def endsAuthority (c : Char) : Bool := c == '/' || c == '?' || c == '#'

/-! ## Authorities -/

/-- What an authority holds so far. -/
structure AuthorityState where
  /-- How many colons there are that no bracket or at sign has settled. -/
  colons : Nat
  /-- Whether there is an opening bracket. -/
  opened : Bool
  /-- Whether there is a closing bracket. -/
  closed : Bool
  /-- Whether there is a percent sign that no bracket or at sign has settled. -/
  percent : Bool
  deriving DecidableEq, Repr

namespace AuthorityState

/-- The state before the first character. -/
def start : AuthorityState := ⟨0, false, false, false⟩

/-- The state behind a character; none when the character breaks the form. Colons and
percent signs may stand before an at sign and between the brackets. -/
def next? (s : AuthorityState) (c : Char) : Option AuthorityState :=
  if c = ':' then if s.colons < 8 then some { s with colons := s.colons + 1 } else none
  else if c = '[' then if s.percent || s.opened then none else some { s with opened := true }
  else if c = ']' then
    if s.opened && !s.closed then some ⟨0, true, true, false⟩ else none
  else if c = '@' then some { s with colons := 0, percent := false }
  else if c = '%' then some { s with percent := true }
  else if isAuthorityChar c then some s
  else none

/-- Whether an authority may end here: brackets come in a pair, one colon at most begins a
port, and no percent sign stands in the host. -/
def mayEnd (s : AuthorityState) : Bool :=
  s.opened == s.closed && decide (s.colons ≤ 1) && !s.percent

end AuthorityState

/-- Whether a text is an authority; a host stands behind its last at sign. -/
def isAuthority (cs : List Char) : Bool :=
  !cs.isEmpty && cs.getLast? != some '@' &&
    ((cs.foldlM AuthorityState.next? .start).map AuthorityState.mayEnd).getD false

/-! ## Targets -/

/-- The text before a fragment. -/
def withoutFragment (cs : List Char) : List Char := cs.takeWhile (· != '#')

/-- Whether a text is a path with what may stand behind it. -/
def isPathAndQuery (cs : List Char) : Bool :=
  let cs := withoutFragment cs
  (cs.takeWhile (· != '?')).all isPathChar && ((cs.dropWhile (· != '?')).drop 1).all isQueryChar

/-- The scheme of a target, and what stands behind the two slashes. -/
def scheme? (cs : List Char) : Option (List Char × List Char) :=
  match cs.dropWhile isSchemeChar with
  | ':' :: '/' :: '/' :: rest => some (cs.takeWhile isSchemeChar, rest)
  | _ => none

/-- The largest number of characters that a scheme may have. -/
def schemeLimit : Nat := 64

/-- The largest number of bytes that a target may have. -/
def lengthLimit : Nat := 65534

/-- Whether a text has the form of a target. -/
def isFormed (cs : List Char) : Bool :=
  match cs with
  | '/' :: _ => isPathAndQuery cs
  | _ =>
    match scheme? cs with
    | some (scheme, rest) =>
      decide (scheme.length ≤ schemeLimit) && isAuthority (rest.takeWhile (!endsAuthority ·)) &&
        isPathAndQuery (rest.dropWhile (!endsAuthority ·))
    | none => isAuthority cs

/-- Whether a text is a target: it has the form of one and is not too long. -/
def isTarget (target : String) : Bool :=
  decide (target.utf8ByteSize ≤ lengthLimit) && isFormed target.toList

/-! ## Paths -/

/-- A target from its path on: the target itself when it starts with a slash, otherwise
what follows the authority behind a scheme. -/
def fromPath (cs : List Char) : List Char :=
  match cs with
  | '/' :: _ => cs
  | _ =>
    match scheme? cs with
    | some (_, rest) => rest.dropWhile (!endsAuthority ·)
    | none => []

/-- The path of a target, without query and fragment. -/
def path (target : List Char) : List Char :=
  (fromPath target).takeWhile fun c => c != '?' && c != '#'

/-- The parts of a text between its slashes. -/
def segments : List Char → List (List Char)
  | [] => [[]]
  | c :: cs =>
    if c = '/' then [] :: segments cs
    else
      match segments cs with
      | [] => [[c]]
      | s :: rest => (c :: s) :: rest

end CalcJournal.Http.Target
