/-
CalcJournal.Proofs.Settings.Environment — what a variable is set to.

There are three places to look for a variable. The process counts first, if its value is the UTF-8
form of a text; then the first line of the settings file that names the variable; and then a
default. `Effective` says so, and `Environment.value?` looks in the first two places.

Settings files are those of plain lines (`IsFile`). A line with quotes, blanks, escapes, comments
or references to variables in it means something else than it says, and no such line is plain.
-/
import CalcJournal.Proofs.Text.Scanning
import CalcJournal.Proofs.Text.Utf8
import CalcJournal.Settings.Environment

namespace CalcJournal.Environment

open Text

/-! ## 1. Three places to look -/

/-- The process sets a variable to a text. -/
def Sets (env : Environment) (name s : String) : Prop :=
  env.process.lookup name = some (Utf8.encode s.toList)

/-- What a variable is set to, or a default where it is not set. -/
inductive Effective (env : Environment) (name otherwise : String) : String → Prop
  | process {s : String} (h : env.Sets name s) : Effective env name otherwise s
  | file {s : String} (hprocess : ∀ s, ¬ env.Sets name s) (h : env.file.lookup name = some s) :
      Effective env name otherwise s
  | default (hprocess : ∀ s, ¬ env.Sets name s) (h : env.file.lookup name = none) :
      Effective env name otherwise otherwise

theorem process_eq_some_iff {env : Environment} {name : String} {cs : List Char} :
    (env.process.lookup name).bind Utf8.decode? = some cs ↔ env.Sets name (String.ofList cs) := by
  simp only [Option.bind_eq_some_iff, Utf8.decode?_eq_some_iff, exists_eq_right, Sets,
    String.toList_ofList]

theorem value?_of_sets {env : Environment} {name s : String} (h : env.Sets name s) :
    env.value? name = some s := by
  rw [← String.ofList_toList (s := s)] at h ⊢
  rw [value?, process_eq_some_iff.2 h]

theorem value?_of_not_sets {env : Environment} {name : String} (h : ∀ s, ¬ env.Sets name s) :
    env.value? name = env.file.lookup name := by
  have hnone : (env.process.lookup name).bind Utf8.decode? = none :=
    Option.eq_none_iff_forall_ne_some.2 fun cs hcs => h _ (process_eq_some_iff.1 hcs)
  rw [value?, hnone]

theorem Effective.getD_value? {env : Environment} {name otherwise s : String}
    (h : env.Effective name otherwise s) : (env.value? name).getD otherwise = s := by
  cases h with
  | process h => rw [value?_of_sets h, Option.getD_some]
  | file hprocess h => rw [value?_of_not_sets hprocess, h, Option.getD_some]
  | default hprocess h => rw [value?_of_not_sets hprocess, h, Option.getD_none]

theorem Effective.unique {env : Environment} {name otherwise s s' : String}
    (h : env.Effective name otherwise s) (h' : env.Effective name otherwise s') : s' = s :=
  h'.getD_value?.symm.trans h.getD_value?

/-- Every variable is set to something, be it the default. -/
theorem exists_effective (env : Environment) (name otherwise : String) :
    ∃ s, env.Effective name otherwise s := by
  by_cases hsets : ∃ s, env.Sets name s
  · obtain ⟨s, h⟩ := hsets
    exact ⟨s, .process h⟩
  · have hprocess : ∀ s, ¬ env.Sets name s := fun s h => hsets ⟨s, h⟩
    cases hfile : env.file.lookup name with
    | some s => exact ⟨s, .file hprocess hfile⟩
    | none => exact ⟨otherwise, .default hprocess hfile⟩

/-! ## 2. Settings files -/

/-- A character of a name. -/
def isNameChar (c : Char) : Bool := c.isAlphanum || c == '_' || c == '.'

/-- A name: letters, digits, underscores and points, with a letter or an underscore in front. -/
def isName : List Char → Bool
  | [] => false
  | c :: cs => (c.isAlpha || c == '_') && cs.all isNameChar

/-- A character that means nothing but itself in a value. -/
def isPlain (c : Char) : Bool :=
  !(isBlank c || c == '\'' || c == '"' || c == '\\' || c == '$' || c == '#')

/-- A name, an equals sign and a value of plain characters. -/
inductive IsLine : List Char → String × String → Prop
  | plain {name value : List Char} (hname : isName name = true)
      (hvalue : value.all isPlain = true) :
      IsLine (name ++ '=' :: value) (String.ofList name, String.ofList value)

theorem isLine (name value : String) (hname : isName name.toList = true)
    (hvalue : value.toList.all isPlain = true) :
    IsLine (name.toList ++ '=' :: value.toList) (name, value) := by
  have h := IsLine.plain hname hvalue
  rwa [String.ofList_toList, String.ofList_toList] at h

/-- Lines with newlines between them, and perhaps one behind the last. -/
inductive IsFile : List Char → List (String × String) → Prop
  | empty : IsFile [] []
  | last {line : List Char} {pair : String × String} (h : IsLine line pair) : IsFile line [pair]
  | line {line rest : List Char} {pair : String × String} {pairs : List (String × String)}
      (h : IsLine line pair) (hrest : IsFile rest pairs) :
      IsFile (line ++ '\n' :: rest) (pair :: pairs)

section Lines

variable {line rest : List Char} {pair : String × String}

/-- The characters of a name are characters of names, the first one too. -/
theorem isNameChar_of_mem {name : List Char} (h : isName name = true) {c : Char} (hc : c ∈ name) :
    isNameChar c = true := by
  cases name with
  | nil => simp at hc
  | cons first rest =>
    obtain ⟨hfirst, hrest⟩ := (Bool.and_eq_true _ _).mp h
    rcases List.mem_cons.1 hc with rfl | hc
    · simp only [isNameChar, Char.isAlphanum, Bool.or_eq_true] at hfirst ⊢
      exact hfirst.elim (fun halpha => .inl (.inl (.inl halpha))) fun hline => .inl (.inr hline)
    · exact List.all_eq_true.1 hrest c hc

theorem IsLine.assignment? (h : IsLine line pair) : assignment? line = some pair := by
  cases h with
  | @plain name value hname hvalue =>
    have hbefore : ∀ c ∈ name, (c != '=') = true := by
      intro c hc
      refine bne_iff_ne.2 ?_
      rintro rfl
      exact absurd (isNameChar_of_mem hname hc) (by decide)
    have hstop : Stops (· != '=') ('=' :: value) := stops_cons.2 (by decide)
    rw [Environment.assignment?, dropWhile_prefix hbefore hstop, takeWhile_prefix hbefore hstop]

theorem IsLine.no_newline (h : IsLine line pair) : ∀ c ∈ line, c ≠ '\n' := by
  cases h with
  | plain hname hvalue =>
    rintro c hc rfl
    rcases List.mem_append.1 hc with hc | hc
    · exact absurd (isNameChar_of_mem hname hc) (by decide)
    · rcases List.mem_cons.1 hc with heq | hc
      · exact absurd heq (by decide)
      · exact absurd (List.all_eq_true.1 hvalue _ hc) (by decide)

theorem lines_of_no_newline (h : ∀ c ∈ line, c ≠ '\n') : lines line = [line] := by
  induction line with
  | nil => rfl
  | cons c line ih =>
    have hrest := ih fun d hd => h d (List.mem_cons_of_mem c hd)
    rw [lines, if_neg (h c (by simp)), hrest]

theorem lines_append (h : ∀ c ∈ line, c ≠ '\n') (rest : List Char) :
    lines (line ++ '\n' :: rest) = line :: lines rest := by
  induction line with
  | nil => rw [List.nil_append, lines, if_pos rfl]
  | cons c line ih =>
    have hrest := ih fun d hd => h d (List.mem_cons_of_mem c hd)
    rw [List.cons_append, lines, if_neg (h c (by simp)), hrest]

/-- **A file of plain lines** is read for what its lines say, in their order. -/
theorem IsFile.assignments {text : String} {pairs : List (String × String)}
    (h : IsFile text.toList pairs) : Environment.assignments text = pairs := by
  rw [Environment.assignments]
  generalize text.toList = cs at h
  induction h with
  | empty => rfl
  | last h => rw [lines_of_no_newline h.no_newline, List.filterMap_cons_some h.assignment?,
      List.filterMap_nil]
  | line h hrest ih =>
    rw [lines_append h.no_newline, List.filterMap_cons_some h.assignment?, ih]

end Lines

end CalcJournal.Environment
