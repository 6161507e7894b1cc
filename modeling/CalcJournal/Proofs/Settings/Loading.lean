/-
CalcJournal.Proofs.Settings.Loading — which settings an environment gives, and what is said of one
that gives none.

The five variables are set to five texts (`Environment.Provides`), and nothing else of the
environment matters. The texts are looked at in two stages. First the log format, the address and
the longest expression are read; then the path and the range of the longest expression are checked.
So the longest expression is looked at twice, and a blank path is reported in between
(`FirstFault`). If there is no fault, each setting is what its own text means (`Means`).

Settings that were accepted can be written out, one text for each, and give themselves again.
-/
import CalcJournal.Proofs.Net.Printing
import CalcJournal.Proofs.Settings.Environment
import CalcJournal.Proofs.Text.Capitals
import CalcJournal.Proofs.Text.Digits
import CalcJournal.Settings.Basic

namespace CalcJournal

open Text

/-! ## 1. The texts of the settings -/

/-- A text for each of the settings. -/
structure Settings.Texts where
  databasePath : String
  logLevel : String
  logFormat : String
  bindAddress : String
  maxExpressionLength : String

/-- What the five variables are set to. -/
structure Environment.Provides (env : Environment) (t : Settings.Texts) : Prop where
  databasePath : env.Effective "DATABASE_PATH" "./data/calculations.db" t.databasePath
  logLevel : env.Effective "LOG_LEVEL" "info" t.logLevel
  logFormat : env.Effective "LOG_FORMAT" "text" t.logFormat
  bindAddress : env.Effective "BIND_ADDRESS" "127.0.0.1:8080" t.bindAddress
  maxExpressionLength : env.Effective "MAX_EXPRESSION_LENGTH" "100" t.maxExpressionLength

theorem Environment.Provides.unique {env : Environment} {t u : Settings.Texts}
    (h : env.Provides t) (h' : env.Provides u) : u = t := by
  cases t
  cases u
  rw [Settings.Texts.mk.injEq]
  exact ⟨h.databasePath.unique h'.databasePath, h.logLevel.unique h'.logLevel,
    h.logFormat.unique h'.logFormat, h.bindAddress.unique h'.bindAddress,
    h.maxExpressionLength.unique h'.maxExpressionLength⟩

/-- The five variables are set to five texts. -/
theorem Environment.exists_provides (env : Environment) :
    ∃ t, env.Provides t ∧ ∀ u, env.Provides u → u = t := by
  obtain ⟨path, hpath⟩ := env.exists_effective "DATABASE_PATH" "./data/calculations.db"
  obtain ⟨level, hlevel⟩ := env.exists_effective "LOG_LEVEL" "info"
  obtain ⟨format, hformat⟩ := env.exists_effective "LOG_FORMAT" "text"
  obtain ⟨address, haddress⟩ := env.exists_effective "BIND_ADDRESS" "127.0.0.1:8080"
  obtain ⟨length, hlength⟩ := env.exists_effective "MAX_EXPRESSION_LENGTH" "100"
  have hprovides : env.Provides ⟨path, level, format, address, length⟩ :=
    ⟨hpath, hlevel, hformat, haddress, hlength⟩
  exact ⟨_, hprovides, fun _ => hprovides.unique⟩

namespace Settings

/-- The settings written out. -/
def texts (s : Settings) : Texts where
  databasePath := s.databasePath
  logLevel := s.logLevel
  logFormat := s.logFormat.name
  bindAddress := s.bindAddress.text
  maxExpressionLength := String.ofList (decimal s.maxExpressionLength)

namespace Texts

/-- The variables of a process that are set to the texts. -/
def asProcess (t : Texts) : List (String × List UInt8) :=
  [("DATABASE_PATH", Utf8.encode t.databasePath.toList),
   ("LOG_LEVEL", Utf8.encode t.logLevel.toList),
   ("LOG_FORMAT", Utf8.encode t.logFormat.toList),
   ("BIND_ADDRESS", Utf8.encode t.bindAddress.toList),
   ("MAX_EXPRESSION_LENGTH", Utf8.encode t.maxExpressionLength.toList)]

theorem provides_asProcess (t : Texts) (file : List (String × String)) :
    (⟨t.asProcess, file⟩ : Environment).Provides t where
  databasePath := .process rfl
  logLevel := .process rfl
  logFormat := .process rfl
  bindAddress := .process rfl
  maxExpressionLength := .process rfl

/-! ## 2. What the texts mean -/

/-- The settings that the texts write. Each of them is determined by its own text. -/
structure Means (t : Texts) (s : Settings) : Prop where
  databasePath : t.databasePath = s.databasePath
  notBlank : ∃ c ∈ t.databasePath.toList, isBlank c = false
  logLevel : t.logLevel = s.logLevel
  logFormat : SameWord t.logFormat.toList s.logFormat.name.toList
  bindAddress : Net.IsSocketAddress t.bindAddress.toList s.bindAddress
  maxExpressionLength : IsUnsigned t.maxExpressionLength.toList s.maxExpressionLength
  inRange : 1 ≤ s.maxExpressionLength ∧ s.maxExpressionLength ≤ 10000

def HasLogFormat (t : Texts) : Prop :=
  SameWord t.logFormat.toList "text".toList ∨ SameWord t.logFormat.toList "json".toList

def HasBindAddress (t : Texts) : Prop := ∃ a, Net.IsSocketAddress t.bindAddress.toList a

/-- A number that fits sixty-four bits. -/
def HasLength (t : Texts) (n : Nat) : Prop :=
  IsUnsigned t.maxExpressionLength.toList n ∧ n < Nat.pow 2 64

def HasPath (t : Texts) : Prop := ∃ c ∈ t.databasePath.toList, isBlank c = false

/-- What is asked of the texts. -/
structure AreSound (t : Texts) : Prop where
  logFormat : t.HasLogFormat
  bindAddress : t.HasBindAddress
  maxExpressionLength : ∃ n, t.HasLength n ∧ 1 ≤ n ∧ n ≤ 10000
  databasePath : t.HasPath

/-- The first fault of the texts, in the order in which they are looked at. Nothing is asked of the
texts that are looked at later. -/
inductive FirstFault (t : Texts) : SettingsError → Prop
  | logFormat (h : ¬ t.HasLogFormat) :
      FirstFault t ⟨"LOG_FORMAT", "must be 'text' or 'json'"⟩
  | bindAddress (hformat : t.HasLogFormat) (h : ¬ t.HasBindAddress) :
      FirstFault t ⟨"BIND_ADDRESS", "not a socket address: invalid socket address syntax"⟩
  | unreadableLength (hformat : t.HasLogFormat) (haddress : t.HasBindAddress)
      (h : ∀ n, ¬ t.HasLength n) :
      FirstFault t ⟨"MAX_EXPRESSION_LENGTH", "must be a positive integer"⟩
  | blankPath {n : Nat} (hformat : t.HasLogFormat) (haddress : t.HasBindAddress)
      (hlength : t.HasLength n) (h : ¬ t.HasPath) :
      FirstFault t ⟨"DATABASE_PATH", "must not be empty"⟩
  | lengthOutOfRange {n : Nat} (hformat : t.HasLogFormat) (haddress : t.HasBindAddress)
      (hlength : t.HasLength n) (hpath : t.HasPath) (h : n < 1 ∨ 10000 < n) :
      FirstFault t ⟨"MAX_EXPRESSION_LENGTH", "must be between 1 and 10000"⟩

theorem hasLogFormat_iff (t : Texts) :
    t.HasLogFormat ↔ ∃ f : LogFormat, SameWord t.logFormat.toList f.name.toList := by
  constructor
  · rintro (h | h)
    · exact ⟨.text, h⟩
    · exact ⟨.json, h⟩
  · rintro ⟨f, h⟩
    cases f with
    | text => exact .inl h
    | json => exact .inr h

/-- Texts mean some settings or have a first fault. -/
theorem means_or_firstFault (t : Texts) : (∃ s, t.Means s) ∨ ∃ e, t.FirstFault e := by
  by_cases hformat : t.HasLogFormat
  case neg => exact .inr ⟨_, .logFormat hformat⟩
  by_cases haddress : t.HasBindAddress
  case neg => exact .inr ⟨_, .bindAddress hformat haddress⟩
  by_cases hlength : ∃ n, t.HasLength n
  case neg =>
    exact .inr ⟨_, .unreadableLength hformat haddress fun n hn => hlength ⟨n, hn⟩⟩
  obtain ⟨n, hlength⟩ := hlength
  by_cases hpath : t.HasPath
  case neg => exact .inr ⟨_, .blankPath hformat haddress hlength hpath⟩
  by_cases hrange : 1 ≤ n ∧ n ≤ 10000
  case neg => exact .inr ⟨_, .lengthOutOfRange hformat haddress hlength hpath (by omega)⟩
  obtain ⟨f, hf⟩ := t.hasLogFormat_iff.1 hformat
  obtain ⟨a, ha⟩ := haddress
  exact .inl ⟨⟨t.databasePath, t.logLevel, f, a, n⟩, rfl, hpath, rfl, hf, ha, hlength.1, hrange⟩

theorem areSound_iff (t : Texts) : t.AreSound ↔ ∃ s, t.Means s := by
  constructor
  · rintro ⟨hformat, ⟨a, ha⟩, ⟨n, hlength, hrange⟩, hpath⟩
    obtain ⟨f, hf⟩ := t.hasLogFormat_iff.1 hformat
    exact ⟨⟨t.databasePath, t.logLevel, f, a, n⟩, rfl, hpath, rfl, hf, ha, hlength.1, hrange⟩
  · rintro ⟨s, h⟩
    have hfits : s.maxExpressionLength < Nat.pow 2 64 :=
      Nat.lt_of_le_of_lt h.inRange.2 (by decide)
    exact ⟨t.hasLogFormat_iff.2 ⟨_, h.logFormat⟩, ⟨_, h.bindAddress⟩,
      ⟨_, ⟨h.maxExpressionLength, hfits⟩, h.inRange⟩, h.notBlank⟩

/-- **Settings that are meant by some texts are meant by their own.** -/
theorem Means.texts {t : Texts} {s : Settings} (h : t.Means s) : s.texts.Means s where
  databasePath := rfl
  notBlank := by
    rw [Settings.texts, ← h.databasePath]
    exact h.notBlank
  logLevel := rfl
  logFormat := .refl _
  bindAddress := by
    rw [Settings.texts, Net.SocketAddress.text, String.toList_ofList]
    exact Net.isSocketAddress_chars s.bindAddress
  maxExpressionLength := by
    rw [Settings.texts, String.toList_ofList]
    exact isUnsigned_decimal s.maxExpressionLength
  inRange := h.inRange

end Texts

/-! ## 3. Reading -/

theorem LogFormat.ofName?_eq_some_iff {s : String} {f : LogFormat} :
    LogFormat.ofName? s = some f ↔ SameWord s.toList f.name.toList := by
  have hsmall : ∀ f : LogFormat, ∀ c ∈ f.name.toList, c.isLower = true := by
    intro f
    rw [← List.all_eq_true]
    cases f <;> decide
  have hne : LogFormat.text.name.toList ≠ LogFormat.json.name.toList := by decide
  rw [sameWord_iff_map fun d hd => toLower_eq_iff (hsmall f d hd), LogFormat.ofName?]
  cases f <;> grind

theorem readLogFormat_eq {s : String} {f : LogFormat} (h : SameWord s.toList f.name.toList) :
    readLogFormat s = .ok f := by
  rw [readLogFormat, LogFormat.ofName?_eq_some_iff.2 h]

theorem readBindAddress_eq {s : String} {a : Net.SocketAddress}
    (h : Net.IsSocketAddress s.toList a) : readBindAddress s = .ok a := by
  rw [readBindAddress, Net.SocketAddress.ofText?, Net.ofChars?_eq_some_iff.2 h]

theorem readLength_eq {s : String} {n : Nat} (h : IsUnsigned s.toList n)
    (hfits : n < Nat.pow 2 64) : readLength s = .ok n := by
  rw [readLength, readUnsigned?_eq_some_iff.2 h]
  exact if_pos hfits

theorem readLength_eq_error {t : Texts} (h : ∀ n, ¬ t.HasLength n) :
    readLength t.maxExpressionLength
      = .error ⟨"MAX_EXPRESSION_LENGTH", "must be a positive integer"⟩ := by
  rw [readLength]
  split
  case h_1 n hn => exact if_neg fun hlt => h n ⟨readUnsigned?_eq_some_iff.1 hn, hlt⟩
  case h_2 => rfl

/-- What the texts give. -/
def Texts.read (t : Texts) : Except SettingsError Settings := do
  let logFormat ← readLogFormat t.logFormat
  let bindAddress ← readBindAddress t.bindAddress
  let maxExpressionLength ← readLength t.maxExpressionLength
  validate
    { databasePath := t.databasePath, logLevel := t.logLevel, logFormat, bindAddress,
      maxExpressionLength }

section Reading

variable {env : Environment} {t : Texts}

/-- A default is what its text is read as. -/
theorem setting_eq {α : Type} {name text s : String} {otherwise : α}
    {read : String → Except SettingsError α} (h : env.Effective name text s)
    (hdefault : read text = .ok otherwise) : setting env name otherwise read = read s := by
  rw [← h.getD_value?, setting]
  cases env.value? name with
  | some s => rfl
  | none => exact hdefault.symm

/-- **An environment gives what the texts give that its variables are set to.** -/
theorem ofEnvironment_eq_read (h : env.Provides t) : ofEnvironment env = t.read := by
  have hformat : readLogFormat "text" = .ok default.logFormat := by rfl
  have haddress : readBindAddress "127.0.0.1:8080" = .ok default.bindAddress := by rfl
  have hlength : readLength "100" = .ok default.maxExpressionLength := by rfl
  have hpath : (env.value? "DATABASE_PATH").getD default.databasePath = t.databasePath :=
    h.databasePath.getD_value?
  have hlevel : (env.value? "LOG_LEVEL").getD default.logLevel = t.logLevel :=
    h.logLevel.getD_value?
  rw [ofEnvironment, setting_eq h.logFormat hformat, setting_eq h.bindAddress haddress,
    setting_eq h.maxExpressionLength hlength, hpath, hlevel]
  rfl

theorem Texts.allBlank_eq_false_iff : allBlank t.databasePath.toList = false ↔ t.HasPath := by
  simp [allBlank, HasPath]

/-- What can be read is then checked. -/
theorem Texts.read_eq_validate {f : LogFormat} {a : Net.SocketAddress} {n : Nat}
    (hf : SameWord t.logFormat.toList f.name.toList)
    (ha : Net.IsSocketAddress t.bindAddress.toList a) (hlength : t.HasLength n) :
    t.read = validate ⟨t.databasePath, t.logLevel, f, a, n⟩ := by
  rw [Texts.read, readLogFormat_eq hf, readBindAddress_eq ha, readLength_eq hlength.1 hlength.2]
  rfl

theorem Texts.Means.read {s : Settings} (h : t.Means s) : t.read = .ok s := by
  have hfits : s.maxExpressionLength < Nat.pow 2 64 := Nat.lt_of_le_of_lt h.inRange.2 (by decide)
  have hpath : allBlank s.databasePath.toList = false :=
    h.databasePath ▸ Texts.allBlank_eq_false_iff.2 h.notBlank
  have hrange : ¬ (s.maxExpressionLength = 0 ∨ lengthLimit < s.maxExpressionLength) := by
    have := h.inRange
    rw [lengthLimit]
    omega
  rw [Texts.read_eq_validate h.logFormat h.bindAddress ⟨h.maxExpressionLength, hfits⟩,
    h.databasePath, h.logLevel]
  simp only [validate, objection?, hpath, Bool.false_eq_true, if_false, hrange]

theorem Texts.FirstFault.read {e : SettingsError} (h : t.FirstFault e) : t.read = .error e := by
  cases h with
  | logFormat h =>
    have hnone : LogFormat.ofName? t.logFormat = none :=
      Option.eq_none_iff_forall_ne_some.2 fun f hf =>
        h (t.hasLogFormat_iff.2 ⟨f, LogFormat.ofName?_eq_some_iff.1 hf⟩)
    rw [Texts.read, readLogFormat, hnone]
    rfl
  | bindAddress hformat h =>
    obtain ⟨f, hf⟩ := t.hasLogFormat_iff.1 hformat
    have hnone : Net.SocketAddress.ofText? t.bindAddress = none :=
      Option.eq_none_iff_forall_ne_some.2 fun a ha => h ⟨a, Net.ofChars?_eq_some_iff.1 ha⟩
    rw [Texts.read, readLogFormat_eq hf, readBindAddress, hnone]
    rfl
  | unreadableLength hformat haddress h =>
    obtain ⟨f, hf⟩ := t.hasLogFormat_iff.1 hformat
    obtain ⟨a, ha⟩ := haddress
    rw [Texts.read, readLogFormat_eq hf, readBindAddress_eq ha, readLength_eq_error h]
    rfl
  | @blankPath n hformat haddress hlength h =>
    obtain ⟨f, hf⟩ := t.hasLogFormat_iff.1 hformat
    obtain ⟨a, ha⟩ := haddress
    have hblank : allBlank t.databasePath.toList = true := by
      rwa [← Texts.allBlank_eq_false_iff, Bool.not_eq_false] at h
    rw [Texts.read_eq_validate hf ha hlength, validate, objection?, if_pos hblank]
  | @lengthOutOfRange n hformat haddress hlength hpath h =>
    obtain ⟨f, hf⟩ := t.hasLogFormat_iff.1 hformat
    obtain ⟨a, ha⟩ := haddress
    have hblank : allBlank t.databasePath.toList = false := Texts.allBlank_eq_false_iff.2 hpath
    have hrange : n = 0 ∨ lengthLimit < n := by
      rw [lengthLimit]
      omega
    rw [Texts.read_eq_validate hf ha hlength, validate, objection?]
    simp only [hblank, Bool.false_eq_true, if_false, hrange, if_true]
    rfl

theorem ofEnvironment_ok_iff (h : env.Provides t) {s : Settings} :
    ofEnvironment env = .ok s ↔ t.Means s := by
  rw [ofEnvironment_eq_read h]
  refine ⟨fun hread => ?_, Texts.Means.read⟩
  rcases t.means_or_firstFault with ⟨s', hmeans⟩ | ⟨e, hfault⟩
  · rw [hmeans.read, Except.ok.injEq] at hread
    exact hread ▸ hmeans
  · simp [hfault.read] at hread

theorem ofEnvironment_error_iff (h : env.Provides t) {e : SettingsError} :
    ofEnvironment env = .error e ↔ t.FirstFault e := by
  rw [ofEnvironment_eq_read h]
  refine ⟨fun hread => ?_, Texts.FirstFault.read⟩
  rcases t.means_or_firstFault with ⟨s, hmeans⟩ | ⟨e', hfault⟩
  · simp [hmeans.read] at hread
  · rw [hfault.read, Except.error.injEq] at hread
    exact hread ▸ hfault

/-! ## 4. What an environment gives -/

/-- Settings agree wherever the texts do that they are read from. -/
structure Agree (t u : Texts) (s r : Settings) : Prop where
  databasePath : t.databasePath = u.databasePath → s.databasePath = r.databasePath
  logLevel : t.logLevel = u.logLevel → s.logLevel = r.logLevel
  logFormat : t.logFormat = u.logFormat → s.logFormat = r.logFormat
  bindAddress : t.bindAddress = u.bindAddress → s.bindAddress = r.bindAddress
  maxExpressionLength : t.maxExpressionLength = u.maxExpressionLength →
    s.maxExpressionLength = r.maxExpressionLength

theorem Texts.Means.agree {u : Texts} {s r : Settings} (h : t.Means s) (h' : u.Means r) :
    Agree t u s r where
  databasePath htext := by rw [← h.databasePath, htext, h'.databasePath]
  logLevel htext := by rw [← h.logLevel, htext, h'.logLevel]
  logFormat htext := by
    have hread := LogFormat.ofName?_eq_some_iff.2 h.logFormat
    rw [htext, LogFormat.ofName?_eq_some_iff.2 h'.logFormat] at hread
    exact (Option.some.inj hread).symm
  bindAddress htext := by
    have hread := Net.ofChars?_eq_some_iff.2 h.bindAddress
    rw [htext, Net.ofChars?_eq_some_iff.2 h'.bindAddress] at hread
    exact (Option.some.inj hread).symm
  maxExpressionLength htext := by
    have hread := readUnsigned?_eq_some_iff.2 h.maxExpressionLength
    rw [htext, readUnsigned?_eq_some_iff.2 h'.maxExpressionLength] at hread
    exact (Option.some.inj hread).symm

/-- **An environment gives the settings that its variables are set to, or the first fault of
them.** Each setting depends on its own variable alone, and accepted settings that are written out
are given again. -/
theorem ofEnvironment_iff_means (process : List (String × List UInt8)) {text : String}
    {lines : List (String × String)} (hfile : Environment.IsFile text.toList lines) :
    ∃ t : Texts, (∀ u, (⟨process, lines⟩ : Environment).Provides u ↔ u = t) ∧
      ((∃ s, ofEnvironment ⟨process, Environment.assignments text⟩ = .ok s) ↔ t.AreSound) ∧
      (∀ s, ofEnvironment ⟨process, Environment.assignments text⟩ = .ok s ↔ t.Means s) ∧
      (∀ e, ofEnvironment ⟨process, Environment.assignments text⟩ = .error e ↔ t.FirstFault e) ∧
      ∀ s, ofEnvironment ⟨process, Environment.assignments text⟩ = .ok s →
        (∀ other u r, other.Provides u → ofEnvironment other = .ok r → Agree t u s r) ∧
        (∀ again, again.Provides s.texts → ofEnvironment again = .ok s) ∧
        ∀ file, (⟨s.texts.asProcess, file⟩ : Environment).Provides s.texts := by
  rw [hfile.assignments]
  obtain ⟨t, hprovides, hunique⟩ := Environment.exists_provides ⟨process, lines⟩
  have hok (s : Settings) := @ofEnvironment_ok_iff _ t hprovides s
  refine ⟨t, fun u => ⟨hunique u, fun hu => hu ▸ hprovides⟩, ?_, hok,
    fun e => ofEnvironment_error_iff hprovides, fun s hs => ?_⟩
  · rw [t.areSound_iff]
    exact exists_congr hok
  · have hmeans := (hok s).1 hs
    refine ⟨fun other u r hother hr => ?_, fun again hagain => ?_, s.texts.provides_asProcess⟩
    · exact hmeans.agree ((ofEnvironment_ok_iff hother).1 hr)
    · exact (ofEnvironment_ok_iff hagain).2 hmeans.texts

/-- An address with a scope and its zeros left out, from the process; a variable that is no text
counts as not set, so the file sets it, by the first of its lines. -/
theorem ofEnvironment_scoped_address :
    let process : List (String × List UInt8) :=
      [("BIND_ADDRESS", Utf8.encode "[fe80::0:1%002]:80".toList), ("LOG_FORMAT", [0xFF])]
    let file := "LOG_FORMAT=Json\nMAX_EXPRESSION_LENGTH=+0250\nLOG_FORMAT=xml"
    let address : Net.SocketAddress :=
      .v6 ⟨[Fin.ofNat _ 0xfe80, 0, 0, 0, 0, 0, 0, 1], rfl⟩ 2 80
    let s : Settings := ⟨"./data/calculations.db", "info", .json, address, 250⟩
    Environment.IsFile file.toList
      [("LOG_FORMAT", "Json"), ("MAX_EXPRESSION_LENGTH", "+0250"), ("LOG_FORMAT", "xml")] ∧
      ofEnvironment ⟨process, Environment.assignments file⟩ = .ok s ∧
      s.texts.bindAddress = "[fe80::1%2]:80" ∧
      ofEnvironment ⟨s.texts.asProcess, []⟩ = .ok s := by
  intro process file address s
  have hfile : Environment.IsFile file.toList
      [("LOG_FORMAT", "Json"), ("MAX_EXPRESSION_LENGTH", "+0250"), ("LOG_FORMAT", "xml")] := by
    have hlast := Environment.IsFile.last (Environment.isLine "LOG_FORMAT" "xml" rfl rfl)
    have hmore := Environment.IsFile.line
      (Environment.isLine "MAX_EXPRESSION_LENGTH" "+0250" rfl rfl) hlast
    have hwhole := Environment.IsFile.line (Environment.isLine "LOG_FORMAT" "Json" rfl rfl) hmore
    exact Eq.mp (congrArg (Environment.IsFile · _) (by decide +kernel)) hwhole
  have hread : (ofEnvironment ⟨process, Environment.assignments file⟩).toOption = some s := by
    decide +kernel
  have hs : ofEnvironment ⟨process, Environment.assignments file⟩ = .ok s := by
    cases hgiven : ofEnvironment ⟨process, Environment.assignments file⟩ with
    | ok r =>
      rw [hgiven] at hread
      rw [Option.some.inj hread]
    | error e => simp [hgiven, Except.toOption] at hread
  obtain ⟨t, -, -, -, -, hback⟩ := ofEnvironment_iff_means process hfile
  obtain ⟨-, hagain, hprovides⟩ := hback s hs
  exact ⟨hfile, hs, by decide +kernel, hagain _ (hprovides [])⟩

end Reading

end Settings

end CalcJournal
