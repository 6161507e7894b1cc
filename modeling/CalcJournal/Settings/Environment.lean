/-
CalcJournal.Settings.Environment — where settings come from.

A variable is looked up among the variables of the process first. One whose value is
no text counts as not set, and is then looked up in the settings file, where the
first line that names it counts. Each line of the file is a name and a value with an
equals sign between them, and both are taken as they stand. Left out is what a line may
write besides that: quotes, escapes, blanks, comments, references to other variables and
the word export.
-/
import CalcJournal.Text.Utf8

namespace CalcJournal

/-- The variables of a process, and the lines of its settings file. -/
structure Environment where
  process : List (String × List UInt8)
  file : List (String × String)

namespace Environment

/-! ## Looking up -/

/-- The value of a variable, if it is set to a text. -/
def value? (env : Environment) (name : String) : Option String :=
  match (env.process.lookup name).bind Utf8.decode? with
  | some cs => some (String.ofList cs)
  | none => env.file.lookup name

/-! ## Settings files -/

/-- The lines of a text. -/
def lines : List Char → List (List Char)
  | [] => [[]]
  | c :: cs =>
    if c = '\n' then [] :: lines cs
    else
      match lines cs with
      | [] => [[c]]
      | l :: ls => (c :: l) :: ls

/-- The name and the value that a plain line writes. -/
def assignment? (line : List Char) : Option (String × String) :=
  match line.dropWhile (· != '=') with
  | _ :: value => some (String.ofList (line.takeWhile (· != '=')), String.ofList value)
  | [] => none

/-- The names and values that the text of a settings file writes. -/
def assignments (text : String) : List (String × String) :=
  (lines text.toList).filterMap assignment?

end Environment

end CalcJournal
