/-
CalcJournal.Settings.Basic — the settings, read from the environment and checked.

There are five, each with a default. What cannot be read is reported in a fixed
order: the log format, the address, the longest expression. What can be read but is
out of range is reported after that: a blank path first, then the longest expression.
-/
import CalcJournal.Net.Reading
import CalcJournal.Settings.Environment
import CalcJournal.Store.StoreError
import CalcJournal.Text.Blank

namespace CalcJournal

/-! ## Log formats -/

/-- How the log is written. -/
inductive LogFormat where
  | text
  | json
  deriving DecidableEq, Repr

namespace LogFormat

/-- The word that names the format. -/
def name : LogFormat → String
  | .text => "text"
  | .json => "json"

/-- The format that a word names, in upper or lower case. -/
def ofName? (s : String) : Option LogFormat :=
  let word := s.toList.map Char.toLower
  if word = LogFormat.text.name.toList then some .text
  else if word = LogFormat.json.name.toList then some .json
  else none

end LogFormat

/-! ## Settings -/

/-- A setting that is at fault, and why. -/
structure SettingsError where
  variableName : String
  reason : String
  deriving DecidableEq, Repr

/-- What is said about a setting that is at fault. -/
def SettingsError.message (e : SettingsError) : String :=
  "Invalid value for " ++ e.variableName ++ ": " ++ e.reason

/-- The settings. -/
structure Settings where
  databasePath : String
  logLevel : String
  logFormat : LogFormat
  bindAddress : Net.SocketAddress
  maxExpressionLength : Nat
  deriving DecidableEq

namespace Settings

/-- The settings of an empty environment. -/
def default : Settings where
  databasePath := "./data/calculations.db"
  logLevel := "info"
  logFormat := .text
  bindAddress := .v4 ⟨⟨127, by decide⟩, ⟨0, by decide⟩, ⟨0, by decide⟩, ⟨1, by decide⟩⟩ ⟨8080, by decide⟩
  maxExpressionLength := 100

/-! ## Reading -/

/-- The log format that a word names, or why it names none. -/
def readLogFormat (s : String) : Except SettingsError LogFormat :=
  match LogFormat.ofName? s with
  | some f => .ok f
  | none => .error ⟨"LOG_FORMAT", "must be 'text' or 'json'"⟩

/-- The address that a text writes, or why it writes none. -/
def readBindAddress (s : String) : Except SettingsError Net.SocketAddress :=
  match Net.SocketAddress.ofText? s with
  | some a => .ok a
  | none => .error ⟨"BIND_ADDRESS", "not a socket address: invalid socket address syntax"⟩

/-- The length that a text writes, which fits sixty-four bits, or why it writes none. -/
def readLength (s : String) : Except SettingsError Nat :=
  match Text.readUnsigned? s.toList with
  | some n =>
    if n < 18446744073709551616 then .ok n
    else .error ⟨"MAX_EXPRESSION_LENGTH", "must be a positive integer"⟩
  | none => .error ⟨"MAX_EXPRESSION_LENGTH", "must be a positive integer"⟩

/-- A setting read from its variable, or its default when that is not set. -/
def setting {α : Type} (env : Environment) (name : String) (otherwise : α)
    (read : String → Except SettingsError α) : Except SettingsError α :=
  match env.value? name with
  | some s => read s
  | none => .ok otherwise

/-! ## Checking -/

/-- The largest value of the longest expression. -/
def lengthLimit : Nat := 10000

/-- What is wrong with settings that could be read, if anything. -/
def objection? (s : Settings) : Option SettingsError :=
  if Text.allBlank s.databasePath.toList then some ⟨"DATABASE_PATH", "must not be empty"⟩
  else if s.maxExpressionLength = 0 ∨ lengthLimit < s.maxExpressionLength then
    some ⟨"MAX_EXPRESSION_LENGTH", "must be between 1 and " ++ toString lengthLimit⟩
  else none

/-- The settings, if they are in range. -/
def validate (s : Settings) : Except SettingsError Settings :=
  match s.objection? with
  | some e => .error e
  | none => .ok s

/-- The settings of an environment. -/
def ofEnvironment (env : Environment) : Except SettingsError Settings := do
  let logFormat ← setting env "LOG_FORMAT" default.logFormat readLogFormat
  let bindAddress ← setting env "BIND_ADDRESS" default.bindAddress readBindAddress
  let maxExpressionLength ←
    setting env "MAX_EXPRESSION_LENGTH" default.maxExpressionLength readLength
  validate
    { databasePath := (env.value? "DATABASE_PATH").getD default.databasePath
      logLevel := (env.value? "LOG_LEVEL").getD default.logLevel
      logFormat, bindAddress, maxExpressionLength }

end Settings

/-! ## Starting -/

/-- Why the program does not start. -/
inductive StartupError where
  | settings (error : SettingsError)
  | storage (error : StoreError)
  | server (message : String)
  deriving DecidableEq

/-- What is said when the program does not start. -/
def StartupError.message : StartupError → String
  | .settings e => "Configuration error: " ++ e.message
  | .storage e => "Storage error: " ++ e.message
  | .server message => "Server error: " ++ message

end CalcJournal
