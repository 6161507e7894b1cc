/-
CalcJournal.Json.Fault — why a text is not the value that was asked for.

A text may be malformed, and then nothing more is said about it: in which way it is,
and the line and column up to which a text was read, are left out. Or it is well
formed as far as it was read, but holds something else than was asked for; such a
mismatch has a cause, and a place, which is the way to it from the whole value:
the names of fields and the indices of elements.
-/
import CalcJournal.Expression.Category
import CalcJournal.Json.Token
import CalcJournal.Text.Hidden

namespace CalcJournal.Json

/-! ## What was found -/

/-- The value that stands where another was asked for. -/
inductive Found where
  | null
  | bool (b : Bool)
  | integer (n : Int)
  | floating (negative : Bool) (rank : Nat)
  | string (text : List Char)
  | sequence
  | map
  deriving DecidableEq, Repr

/-- A text between backquotes. -/
def ticked (cs : List Char) : String := "`" ++ String.ofList cs ++ "`"

namespace Found

/-- The value that starts with a token; none when none does. -/
def ofToken? : Token → Option Found
  | .null => some .null
  | .bool b => some (.bool b)
  | .number n => n.numeral?.map fun
    | .integer i => .integer i
    | .floating negative rank => .floating negative rank
  | .string text => text.map .string
  | .openArray => some .sequence
  | .openObject => some .map
  | _ => none

/-- How a value is described. -/
def description : Found → String
  | .null => "null"
  | .bool b => "boolean " ++ ticked (Token.bool b).chars
  | .integer n => "integer " ++ ticked (Text.decimalInt n)
  | .floating negative rank => "floating point " ++ ticked (Number.ofFinite negative rank).chars
  | .string text => "string " ++ String.ofList (Text.quoted text)
  | .sequence => "sequence"
  | .map => "map"

end Found

/-! ## Mismatches -/

/-- The ways in which a well-formed text is not what was asked for. -/
inductive Mismatch where
  /-- A value of another type. -/
  | invalidType (found : Found) (expected : String)
  /-- An integer that is out of range. -/
  | invalidInteger (n : Int) (expected : String)
  /-- A list that is too short. -/
  | invalidLength (length : Nat) (expected : String)
  /-- A field that must not be left out. -/
  | missingField (name : String)
  /-- A field that is given a second time. -/
  | duplicateField (name : String)
  /-- A word that names no category. -/
  | unknownCategory (word : List Char)
  /-- A text that writes no instant; what is wrong with it is left out. -/
  | invalidInstant
  /-- A text that names no double. -/
  | unknownDouble (word : List Char)
  /-- A value that is neither a number nor a text. -/
  | noDouble
  deriving DecidableEq, Repr

/-- The labels of all categories, between backquotes. -/
def categoryChoices : String :=
  ", ".intercalate (Category.all.map fun c => ticked c.label.toList)

/-- What is said about a mismatch. -/
def Mismatch.message : Mismatch → String
  | .invalidType found expected =>
    "invalid type: " ++ found.description ++ ", expected " ++ expected
  | .invalidInteger n expected =>
    "invalid value: " ++ (Found.integer n).description ++ ", expected " ++ expected
  | .invalidLength length expected =>
    "invalid length " ++ toString length ++ ", expected " ++ expected
  | .missingField name => "missing field " ++ ticked name.toList
  | .duplicateField name => "duplicate field " ++ ticked name.toList
  | .unknownCategory word =>
    "unknown variant " ++ ticked word ++ ", expected one of " ++ categoryChoices
  | .invalidInstant => "invalid datetime"
  | .unknownDouble word =>
    "expected a number, \"Infinity\", \"-Infinity\" or \"NaN\", got \""
      ++ String.ofList word ++ "\""
  | .noDouble => "data did not match any variant of untagged enum Repr"

/-! ## Places -/

/-- A step on the way from a value to a part of it. -/
inductive PlaceStep where
  | field (name : String)
  | element (index : Nat)
  deriving DecidableEq, Repr

/-- The text of a place: indices in brackets, and points before all names but a first. -/
def placeText : List PlaceStep → String
  | [] => ""
  | s :: rest => stepText "" s ++ String.join (rest.map (stepText "."))
where
  /-- A step with the mark that stands before a name. -/
  stepText (mark : String) : PlaceStep → String
    | .field name => mark ++ name
    | .element index => "[" ++ toString index ++ "]"

/-! ## Faults -/

/-- Why a text is not the value that was asked for. -/
inductive Fault where
  /-- The text is no JSON; where it breaks off is left out. -/
  | malformed
  /-- The text is JSON as far as it was read, but the value at a place is not as asked for. -/
  | mismatch (place : List PlaceStep) (cause : Mismatch)
  deriving DecidableEq, Repr

namespace Fault

/-- The fault seen from the value of which the faulty one is a part. -/
def within (s : PlaceStep) : Fault → Fault
  | .malformed => .malformed
  | .mismatch place cause => .mismatch (s :: place) cause

/-- The fault of a value that is not of the expected type. -/
def wrongType (expected : String) : List Token → Fault
  | [] => .malformed
  | t :: _ =>
    match Found.ofToken? t with
    | some found => .mismatch [] (.invalidType found expected)
    | none => .malformed

end Fault

end CalcJournal.Json
