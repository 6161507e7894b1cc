/-
CalcJournal.Http.MediaType — names, and the content types that are JSON.

A name is a word of letters, digits and fifteen marks; methods are names, too. Blanks,
brackets and the marks that separate names from each other are not among them.

A content type is two names with a slash between them, and parameters behind
semicolons. The second name may have a suffix behind its last plus. It is JSON when
the first name is `application` and the second, or its suffix, is `json`, all in
either case of letter. A text that breaks the form is no content type at all.
-/

namespace CalcJournal.Http

/-! ## Names -/

/-- The characters that names are made of. -/
def isNameChar (c : Char) : Bool := c.isAlphanum || "!#$%&'*+-.^_`|~".toList.contains c

/-- A name has at least one character. -/
def isName (cs : List Char) : Bool := !cs.isEmpty && cs.all isNameChar

/-! ## Parameters -/

/-- The characters that may stand between quotes, a backslash among them, which has no
meaning of its own. -/
def isQuotedChar (c : Char) : Bool := 0x20 ≤ c.toNat && c.toNat < 0x7F

/-- How far a sequence of parameters has been read. -/
inductive ParameterState where
  /-- Behind a semicolon. -/
  | gap
  /-- In a name. -/
  | name
  /-- Behind the equals sign. -/
  | valueStart
  /-- In a value without quotes. -/
  | value
  /-- Behind the opening quote. -/
  | quoteStart
  /-- Between quotes. -/
  | quoted
  /-- Behind the closing quote. -/
  | closed
  deriving DecidableEq, Repr

namespace ParameterState

/-- The state behind a character; none when the character breaks the form. A quotation
mark right behind the opening one belongs to the value. -/
def next? (s : ParameterState) (c : Char) : Option ParameterState :=
  match s with
  | .gap => if c = ' ' then some .gap else if isNameChar c then some .name else none
  | .name => if c = '=' then some .valueStart else if isNameChar c then some .name else none
  | .valueStart =>
    if c = '"' then some .quoteStart else if isNameChar c then some .value else none
  | .value => if c = ';' then some .gap else if isNameChar c then some .value else none
  | .quoteStart => if isQuotedChar c then some .quoted else none
  | .quoted => if c = '"' then some .closed else if isQuotedChar c then some .quoted else none
  | .closed => if c = ';' then some .gap else if c = ' ' then some .closed else none

/-- Whether the parameters may end here. -/
def mayEnd : ParameterState → Bool
  | .gap | .valueStart | .value | .closed => true
  | .name | .quoteStart | .quoted => false

end ParameterState

/-- Whether a text behind the first semicolon is a sequence of parameters. -/
def areParameters (cs : List Char) : Bool :=
  ((cs.foldlM ParameterState.next? .gap).map ParameterState.mayEnd).getD false

/-! ## Content types -/

/-- The part of a second name before its last plus, and the suffix behind it. A plus at
the front belongs to the name. -/
def splitSuffix (name : List Char) : List Char × Option (List Char) :=
  let suffix := (name.reverse.takeWhile (· != '+')).reverse
  let front := name.take (name.length - suffix.length - 1)
  if suffix.length < name.length ∧ front ≠ [] then (front, some suffix) else (name, none)

/-- The names of a content type, in lower case, if the text is one. -/
def contentType? (cs : List Char) : Option (List Char × List Char) :=
  let first := cs.takeWhile isNameChar
  match cs.dropWhile isNameChar with
  | '/' :: rest =>
    let second := rest.takeWhile isNameChar
    if first.isEmpty || second.isEmpty then none
    else
      let names := (first.map Char.toLower, second.map Char.toLower)
      match rest.dropWhile isNameChar with
      | [] => some names
      | ';' :: parameters => if areParameters parameters then some names else none
      | _ => none
  | _ => none

/-- Whether a content type is JSON. -/
def isJson (contentType : String) : Bool :=
  match contentType? contentType.toList with
  | none => false
  | some (first, second) =>
    let (front, suffix) := splitSuffix second
    first = "application".toList && (front = "json".toList || suffix = some "json".toList)

end CalcJournal.Http
