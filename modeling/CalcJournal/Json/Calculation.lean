/-
CalcJournal.Json.Calculation — calculations, and requests for one, as JSON.

A calculation is an object of five fields. Its instant is written in UTC with the
fewest fraction digits that lose nothing. JSON has no infinity and no not-a-number
value, so a result that is one of these is written as a word.

Reading accepts more spellings: a category may stand alone or as the only name of an
object with the value null, an instant may have any offset, and a result may be
spelled as an integer.
-/
import CalcJournal.Calculation
import CalcJournal.Calendar.Rfc3339
import CalcJournal.Json.Shape

namespace CalcJournal.Json

/-! ## Writing -/

/-- A double as a number, or as a word when it is none. -/
def Token.ofBinary64 : Binary64 → Token
  | .nan => .ofString "NaN"
  | .infinite false => .ofString "Infinity"
  | .infinite true => .ofString "-Infinity"
  | .finite negative rank => .number (.ofFinite negative rank)

/-- A field of an object: its name and the token of its value. -/
def fieldTokens (name : String) (value : Token) : List Token :=
  [.ofString name, .colon, value]

/-- A calculation as an object. -/
def calculationTokens (c : Calculation) : List Token :=
  .openObject ::
    (fieldTokens "id" (.number (.ofInt c.id.val)) ++ .comma ::
    (fieldTokens "type" (.ofString c.category.label) ++ .comma ::
    (fieldTokens "expression" (.ofString c.expression) ++ .comma ::
    (fieldTokens "createDate" (.ofString (c.created.text .fewest)) ++ .comma ::
    (fieldTokens "result" (.ofBinary64 c.result) ++ [.closeObject])))))

/-- Items with commas between them. -/
def separated : List (List Token) → List Token
  | [] => []
  | [item] => item
  | item :: items => item ++ .comma :: separated items

/-- Calculations as an array. -/
def calculationListTokens (cs : List Calculation) : List Token :=
  .openArray :: (separated (cs.map calculationTokens) ++ [.closeArray])

/-! ## Reading values -/

/-- An id, which is an integer. -/
def readId : Reader CalculationId :=
  .ofToken fun t =>
    match t with
    | .number n =>
      match n.numeral? with
      | some (.integer i) =>
        match CalculationId.ofInt? i with
        | some id => .ok id
        | none => .error (.mismatch [] (.invalidInteger i "i64"))
      | _ => .error (.wrongType "i64" [t])
    | _ => .error (.wrongType "i64" [t])

/-- A text that is described by `expected` and means what `f` says. -/
def readText {β : Type} (expected : String) (f : List Char → Except Mismatch β) : Reader β :=
  .ofToken fun t =>
    match t with
    | .string (some cs) =>
      match f cs with
      | .ok b => .ok b
      | .error cause => .error (.mismatch [] cause)
    | _ => .error (.wrongType expected [t])

/-- A text. -/
def readString : Reader String := readText "a string" fun cs => .ok (String.ofList cs)

/-- An instant. -/
def readInstant : Reader Instant :=
  readText "an RFC 3339 formatted date and time string" fun cs =>
    match Rfc3339.readChars? cs with
    | some t => .ok t
    | none => .error .invalidInstant

/-- The category of a label. -/
def category (label : List Char) : Except Mismatch Category :=
  match Category.ofLabel? (String.ofList label) with
  | some c => .ok c
  | none => .error (.unknownCategory label)

/-- What stands behind the label of a category inside an object. -/
def readCategoryEnd : List Token → Except Fault (List Token)
  | .colon :: .null :: .closeObject :: rest => .ok rest
  | .colon :: .null :: _ => .error .malformed
  | .colon :: ts => .error (.wrongType "unit" ts)
  | _ => .error .malformed

/-- A category from its label, alone or as the name of an object. -/
def readCategoryTokens : List Token → Except Fault (Category × List Token)
  | .string (some label) :: rest =>
    match category label with
    | .ok c => .ok (c, rest)
    | .error cause => .error (.mismatch [] cause)
  | .openObject :: .string (some label) :: ts =>
    match category label with
    | .error cause => .error (.mismatch [] cause)
    | .ok c =>
      match readCategoryEnd ts with
      | .ok rest => .ok (c, rest)
      | .error e => .error (e.within (.field c.label))
  | _ => .error .malformed

theorem length_of_readCategoryEnd {ts rest : List Token} (h : readCategoryEnd ts = .ok rest) :
    rest.length < ts.length := by
  unfold readCategoryEnd at h
  split at h <;> simp_all
  omega

/-- A category. -/
def readCategory : Reader Category where
  run := readCategoryTokens
  shorter {ts rest c} h := by
    unfold readCategoryTokens at h
    split at h
    · split at h <;> simp_all
    · split at h
      · simp at h
      · split at h
        · have := length_of_readCategoryEnd ‹_›
          simp_all only [Except.ok.injEq, Prod.mk.injEq, List.length_cons]; omega
        · simp at h
    · simp at h

/-- The double that a word names. -/
def doubleWord (word : List Char) : Except Mismatch Binary64 :=
  if word = "Infinity".toList then .ok (.infinite false)
  else if word = "-Infinity".toList then .ok (.infinite true)
  else if word = "NaN".toList then .ok .nan
  else .error (.unknownDouble word)

/-- A result at the front: a number or a word. Any other value is looked at as a whole
before it is refused. -/
def readDoubleTokens : List Token → Except Fault (Binary64 × List Token)
  | .number n :: rest =>
    if n.nearest.isFinite then .ok (n.nearest, rest) else .error .malformed
  | .string (some word) :: rest =>
    match doubleWord word with
    | .ok x => .ok (x, rest)
    | .error cause => .error (.mismatch [] cause)
  | ts =>
    match skip admitsPlain ts with
    | some _ => .error (.mismatch [] .noDouble)
    | none => .error .malformed

/-- A result. -/
def readDouble : Reader Binary64 where
  run := readDoubleTokens
  shorter {ts rest x} h := by
    unfold readDoubleTokens at h
    split at h
    · split at h <;> simp_all
    · split at h <;> simp_all
    · split at h <;> simp at h

/-! ## Reading calculations -/

/-- A calculation as far as it has been read. -/
structure CalculationFields where
  id : Option CalculationId
  category : Option Category
  expression : Option String
  created : Option Instant
  result : Option Binary64

/-- A field, or the complaint that it is lacking. -/
def required {β : Type} (name : String) : Option β → Except Mismatch β
  | some b => .ok b
  | none => .error (.missingField name)

/-- The calculation, if no field is lacking. -/
def CalculationFields.finish (f : CalculationFields) : Except Mismatch Calculation := do
  let id ← required "id" f.id
  let category ← required "type" f.category
  let expression ← required "expression" f.expression
  let created ← required "createDate" f.created
  let result ← required "result" f.result
  return ⟨id, category, expression, created, result⟩

/-- The shape of a calculation. -/
def calculationShape : Shape CalculationFields Calculation where
  name := "struct CalculationModel"
  size := "5 elements"
  empty := ⟨none, none, none, none, none⟩
  fields :=
    [.of "id" (·.id) (fun b f => { f with id := some b }) readId,
      .of "type" (·.category) (fun b f => { f with category := some b }) readCategory,
      .of "expression" (·.expression) (fun b f => { f with expression := some b }) readString,
      .of "createDate" (·.created) (fun b f => { f with created := some b }) readInstant,
      .of "result" (·.result) (fun b f => { f with result := some b }) readDouble]
  finish := CalculationFields.finish

/-- The calculation that a text is. -/
def readCalculation (ts : List Token) : Except Fault Calculation := calculationShape.read ts

/-! ## Reading requests -/

/-- The shape of a request, which is only an expression. -/
def requestShape : Shape (Option String) String where
  name := "struct CreateCalculationRequest"
  size := "1 element"
  empty := none
  fields := [.of "expression" id (fun b _ => some b) readString]
  finish := required "expression"

/-- The expression that a request asks to file. -/
def readRequest (ts : List Token) : Except Fault String := requestShape.read ts

end CalcJournal.Json
