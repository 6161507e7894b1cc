/-
CalcJournal.Proofs.Json.Members — a calculation may have its members in any order.

The members of an object are read one after the other, and each sets the field of its name, or
none. What is set is the same in any order, so a calculation is read whenever each of its fields is
denoted by one member, whatever else the object holds. Two orders remain for what is wrong: a
member that is at fault is reported where it stands in the text, and a field that is lacking is
reported at the end, the first one in the order of the fields.
-/
import CalcJournal.Proofs.Json.Calculation
import CalcJournal.Proofs.Json.Deciding

namespace CalcJournal.Json

/-! ## 1. Fields -/

/-- The fields of a calculation. -/
inductive CalculationField where
  | id
  | type
  | expression
  | createDate
  | result
  deriving DecidableEq

namespace CalculationField

def name : CalculationField → String
  | .id => "id"
  | .type => "type"
  | .expression => "expression"
  | .createDate => "createDate"
  | .result => "result"

/-- The fields in their order. -/
def all : List CalculationField := [.id, .type, .expression, .createDate, .result]

theorem mem_all (k : CalculationField) : k ∈ all := by
  cases k <;> decide

/-- The fields in front of one. -/
def before (k : CalculationField) : List CalculationField := all.takeWhile fun j => j != k

/-- A value denotes what a calculation has in a field. -/
def Denotes (c : Calculation) : CalculationField → List Token → Prop
  | .id => DenotesId c.id
  | .type => DenotesCategory c.category
  | .expression => DenotesText c.expression
  | .createDate => DenotesInstant c.created
  | .result => DenotesDouble c.result

/-- A value is of the type of a field. -/
def HasType (k : CalculationField) (v : List Token) : Prop := ∃ c, Denotes c k v

theorem name_toList_inj {j k : CalculationField} (h : j.name.toList = k.name.toList) : j = k := by
  have hall : ∀ j ∈ all, ∀ k ∈ all, j.name.toList = k.name.toList → j = k := by decide
  exact hall j j.mem_all k k.mem_all h

end CalculationField

/-! ## 2. What has been read -/

namespace CalculationFields

/-- A field has been read. -/
def has (s : CalculationFields) : CalculationField → Bool
  | .id => s.id.isSome
  | .type => s.category.isSome
  | .expression => s.expression.isSome
  | .createDate => s.created.isSome
  | .result => s.result.isSome

/-- The fields with one of a calculation's among them. -/
def put (c : Calculation) : CalculationField → CalculationFields → CalculationFields
  | .id => fun s => { s with id := some c.id }
  | .type => fun s => { s with category := some c.category }
  | .expression => fun s => { s with expression := some c.expression }
  | .createDate => fun s => { s with created := some c.created }
  | .result => fun s => { s with result := some c.result }

/-- The fields that have been read are those of a calculation. -/
def ArePartOf (s : CalculationFields) (c : Calculation) : Prop :=
  ∀ k, s.has k = true → put c k s = s

variable {s : CalculationFields} {c : Calculation}

@[simp] theorem has_put (j k : CalculationField) : (put c k s).has j = (j == k || s.has j) := by
  cases j <;> cases k <;> simp [has, put]

theorem put_comm (j k : CalculationField) (s : CalculationFields) :
    put c j (put c k s) = put c k (put c j s) := by
  cases j <;> cases k <;> rfl

theorem put_self (k : CalculationField) (s : CalculationFields) :
    put c k (put c k s) = put c k s := by
  cases k <;> rfl

theorem ArePartOf.put (h : s.ArePartOf c) (k : CalculationField) :
    (CalculationFields.put c k s).ArePartOf c := by
  intro j hj
  by_cases hjk : j = k
  · rw [hjk, put_self]
  · have hold : s.has j = true := by simpa [hjk] using hj
    rw [put_comm, h j hold]

theorem finish_of_arePartOf (h : s.ArePartOf c) (hall : ∀ k, s.has k = true) :
    s.finish = .ok c := by
  have hid : s.id = some c.id := by rw [← h .id (hall .id)]; rfl
  have htype : s.category = some c.category := by rw [← h .type (hall .type)]; rfl
  have hexpression : s.expression = some c.expression := by
    rw [← h .expression (hall .expression)]; rfl
  have hcreated : s.created = some c.created := by rw [← h .createDate (hall .createDate)]; rfl
  have hresult : s.result = some c.result := by rw [← h .result (hall .result)]; rfl
  rw [finish, hid, htype, hexpression, hcreated, hresult]
  rfl

theorem required_of_isSome {β : Type} {name : String} {o : Option β} (h : o.isSome = true) :
    ∃ b, required name o = .ok b := by
  obtain ⟨b, rfl⟩ := Option.isSome_iff_exists.1 h
  exact ⟨b, rfl⟩

theorem required_of_not_isSome {β : Type} {name : String} {o : Option β} (h : o.isSome = false) :
    required name o = .error (.missingField name) := by
  obtain rfl := Option.isSome_eq_false_iff.1 h |> Option.isNone_iff_eq_none.1
  rfl

theorem bind_of_ok {α β : Type} {x : Except Mismatch α} {a : α} {f : α → Except Mismatch β}
    {r : Except Mismatch β} (hx : x = .ok a) (hf : f a = r) : x.bind f = r := by
  rw [hx]
  exact hf

/-- The first field that is lacking is complained about. -/
theorem finish_of_lacking {k : CalculationField} (hk : s.has k = false)
    (hbefore : ∀ j ∈ k.before, s.has j = true) : s.finish = .error (.missingField k.name) := by
  have hfound (j : CalculationField) (hj : j ∈ k.before) {β : Type} {o : Option β}
      (h : s.has j = o.isSome) : ∃ b, required j.name o = .ok b :=
    required_of_isSome (h ▸ hbefore j hj)
  cases k with
  | id =>
    rw [finish, @required_of_not_isSome _ "id" s.id hk]
    rfl
  | type =>
    obtain ⟨id, hid⟩ := @hfound .id (by decide) _ s.id rfl
    rw [finish, @required_of_not_isSome _ "type" s.category hk]
    exact bind_of_ok hid rfl
  | expression =>
    obtain ⟨id, hid⟩ := @hfound .id (by decide) _ s.id rfl
    obtain ⟨category, hcategory⟩ := @hfound .type (by decide) _ s.category rfl
    rw [finish, @required_of_not_isSome _ "expression" s.expression hk]
    exact bind_of_ok hid (bind_of_ok hcategory rfl)
  | createDate =>
    obtain ⟨id, hid⟩ := @hfound .id (by decide) _ s.id rfl
    obtain ⟨category, hcategory⟩ := @hfound .type (by decide) _ s.category rfl
    obtain ⟨expression, hexpression⟩ := @hfound .expression (by decide) _ s.expression rfl
    rw [finish, @required_of_not_isSome _ "createDate" s.created hk]
    exact bind_of_ok hid (bind_of_ok hcategory (bind_of_ok hexpression rfl))
  | result =>
    obtain ⟨id, hid⟩ := @hfound .id (by decide) _ s.id rfl
    obtain ⟨category, hcategory⟩ := @hfound .type (by decide) _ s.category rfl
    obtain ⟨expression, hexpression⟩ := @hfound .expression (by decide) _ s.expression rfl
    obtain ⟨created, hcreated⟩ := @hfound .createDate (by decide) _ s.created rfl
    rw [finish, @required_of_not_isSome _ "result" s.result hk]
    exact bind_of_ok hid (bind_of_ok hcategory (bind_of_ok hexpression (bind_of_ok hcreated rfl)))

end CalculationFields

/-! ## 3. The readers of the fields -/

theorem nonempty_calculation : Nonempty Calculation := by
  have hread : (Instant.ofText? "1970-01-01T00:00:00Z").isSome = true := by decide +kernel
  obtain ⟨t, -⟩ := Option.isSome_iff_exists.1 hread
  exact ⟨⟨0, by decide, by decide⟩, .other, "", t, .nan⟩

namespace CalculationField

open CalculationFields

/-- A field of the shape of a calculation is the one that is meant. -/
structure IsReadBy (k : CalculationField) (f : Field CalculationFields) : Prop where
  found : calculationShape.field? k.name.toList = some f
  name : f.name = k.name
  isSet : ∀ s, f.isSet s = s.has k
  takes : ∀ {c v}, Denotes c k v → ∀ rest, f.reader.run (v ++ rest) = .ok (put c k, rest)
  refuses : ∀ {v}, IsValue v → ¬ HasType k v → ∃ e, ∀ rest, f.reader.run (v ++ rest) = .error e

/-- A field is read by its reader if that decides what denotes its values. -/
theorem isReadBy_of {β : Type} {D : β → List Token → Prop} {r : Reader β}
    {get : CalculationFields → Option β} {set : β → CalculationFields → CalculationFields}
    {k : CalculationField} {value : Calculation → β} (hr : r.Decides D)
    (hfound : calculationShape.field? k.name.toList = some (.of k.name get set r))
    (hset : ∀ s, (get s).isSome = s.has k) (hput : ∀ c, set (value c) = put c k)
    (hD : ∀ c v, Denotes c k v ↔ D (value c) v) (hvalue : ∀ b, ∃ c, value c = b) :
    k.IsReadBy (.of k.name get set r) where
  found := hfound
  name := rfl
  isSet := hset
  takes {c v} h rest := by
    rw [← hput]
    exact Field.run_of (hr.takes ((hD c v).1 h) rest)
  refuses {v} hv hnot := by
    have hnone : ∀ b, ¬ D b v := by
      intro b hb
      obtain ⟨c, rfl⟩ := hvalue b
      exact hnot ⟨c, (hD c v).2 hb⟩
    obtain ⟨e, he⟩ := hr.refuses hv hnone
    exact ⟨e, fun rest => Field.run_of_error (he rest)⟩

theorem exists_isReadBy (k : CalculationField) : ∃ f, k.IsReadBy f := by
  obtain ⟨c⟩ := nonempty_calculation
  cases k with
  | id =>
    exact ⟨_, isReadBy_of readId_decides rfl (fun _ => rfl) (fun _ => rfl) (fun _ _ => .rfl)
      fun b => ⟨{ c with id := b }, rfl⟩⟩
  | type =>
    exact ⟨_, isReadBy_of readCategory_decides rfl (fun _ => rfl) (fun _ => rfl) (fun _ _ => .rfl)
      fun b => ⟨{ c with category := b }, rfl⟩⟩
  | expression =>
    exact ⟨_, isReadBy_of readString_decides rfl (fun _ => rfl) (fun _ => rfl) (fun _ _ => .rfl)
      fun b => ⟨{ c with expression := b }, rfl⟩⟩
  | createDate =>
    exact ⟨_, isReadBy_of readInstant_decides rfl (fun _ => rfl) (fun _ => rfl) (fun _ _ => .rfl)
      fun b => ⟨{ c with created := b }, rfl⟩⟩
  | result =>
    exact ⟨_, isReadBy_of readDouble_decides rfl (fun _ => rfl) (fun _ => rfl) (fun _ _ => .rfl)
      fun b => ⟨{ c with result := b }, rfl⟩⟩

/-- What a value denotes is determined by the value. -/
theorem put_eq_of_denotes {c d : Calculation} {k : CalculationField} {v : List Token}
    (h : k.Denotes c v) (h' : k.Denotes d v) : put c k = put d k := by
  obtain ⟨f, hf⟩ := k.exists_isReadBy
  have hread := hf.takes h []
  rw [hf.takes h' []] at hread
  exact (Prod.mk.inj (Except.ok.inj hread)).1.symm

/-- No field has a name that is none of theirs. -/
theorem field?_of_ne {cs : List Char} (h : ∀ k : CalculationField, cs ≠ k.name.toList) :
    calculationShape.field? cs = none := by
  refine List.find?_eq_none.2 fun f hf hname => ?_
  have hnames : calculationShape.fields.map (·.name) = all.map name := rfl
  have hmem : f.name ∈ all.map name := hnames ▸ List.mem_map_of_mem hf
  obtain ⟨k, -, hk⟩ := List.mem_map.1 hmem
  refine h k ?_
  rw [hk, eq_of_beq hname, String.toList_ofList]

end CalculationField

/-! ## 4. Members -/

namespace Shape

variable {σ α : Type} {shape : Shape σ α} {s : σ} {name : List Char} {f : Field σ}
  {ts rest : List Token}

/-- A member that the record does not have is passed over. -/
theorem readMembers_other_comma (hfield : shape.field? name = none)
    (hskip : skip admitsAny ts = some (.comma :: rest)) :
    shape.readMembers s (.string (some name) :: .colon :: ts) = shape.readMembers s rest := by
  rw [readMembers]
  simp only [hfield]
  split <;> simp_all

theorem readMembers_other_close (hfield : shape.field? name = none)
    (hskip : skip admitsAny ts = some (.closeObject :: rest)) :
    shape.readMembers s (.string (some name) :: .colon :: ts) = .ok (s, rest) := by
  rw [readMembers]
  simp only [hfield]
  split <;> simp_all

/-- A member whose value is refused ends the reading. -/
theorem readMembers_error {e : Fault} (hfield : shape.field? name = some f)
    (hset : f.isSet s = false) (hread : f.reader.run ts = .error e) :
    shape.readMembers s (.string (some name) :: .colon :: ts)
      = .error (e.within (.field f.name)) := by
  rw [readMembers]
  simp only [hfield, hset, Bool.false_eq_true, if_false]
  split <;> simp_all

/-- The name of a field that is set ends the reading. -/
theorem readMembers_duplicate (hfield : shape.field? name = some f) (hset : f.isSet s = true) :
    shape.readMembers s (.string (some name) :: ts)
      = .error (.mismatch [] (.duplicateField f.name)) := by
  rw [readMembers.eq_def]
  simp only [hfield, hset, if_true]

end Shape

/-- A member of an object. -/
structure Member where
  name : List Char
  value : List Token

namespace Member

open CalculationFields

def tokens (p : Member) : List Token := .string (some p.name) :: .colon :: p.value

/-- Members with a comma behind each. -/
def led (ms : List Member) : List Token := ms.flatMap fun p => p.tokens ++ [.comma]

/-- An object of members. -/
def object (ms : List Member) : List Token :=
  .openObject :: (separated (ms.map tokens) ++ [.closeObject])

/-- One of the members is for a field. -/
def Have (ms : List Member) (k : CalculationField) : Prop := ∃ p ∈ ms, p.name = k.name.toList

/-- Members that are not at fault. Each has a value of JSON, and one for a field has a value of
its type; and no two of them are for the same field. -/
structure AreSound (ms : List Member) : Prop where
  values : ∀ p ∈ ms, IsValue p.value
  typed : ∀ p ∈ ms, ∀ k : CalculationField, p.name = k.name.toList → k.HasType p.value
  once : ms.Pairwise fun p q => ∀ k : CalculationField, p.name = k.name.toList → q.name ≠ p.name

/-- Members among which each field of a calculation is denoted once; the others may be any. -/
structure AreOf (ms : List Member) (c : Calculation) : Prop where
  values : ∀ p ∈ ms, IsValue p.value
  denotes : ∀ p ∈ ms, ∀ k : CalculationField, p.name = k.name.toList → k.Denotes c p.value
  once : ms.Pairwise fun p q => ∀ k : CalculationField, p.name = k.name.toList → q.name ≠ p.name
  complete : ∀ k, Have ms k

/-- Behind a member, reading goes on with other fields, or ends with them. -/
structure Turns (p : Member) (s s' : CalculationFields) : Prop where
  comma : ∀ rest, calculationShape.readMembers s (p.tokens ++ .comma :: rest)
    = calculationShape.readMembers s' rest
  close : ∀ rest, calculationShape.readMembers s (p.tokens ++ .closeObject :: rest) = .ok (s', rest)

variable {p : Member} {s s' : CalculationFields} {c : Calculation} {k : CalculationField}

theorem turns_other (hname : ∀ k : CalculationField, p.name ≠ k.name.toList)
    (hvalue : IsValue p.value) : p.Turns s s where
  comma _ := Shape.readMembers_other_comma (CalculationField.field?_of_ne hname)
    (skip_admitsAny hvalue _)
  close _ := Shape.readMembers_other_close (CalculationField.field?_of_ne hname)
    (skip_admitsAny hvalue _)

theorem turns_field (hname : p.name = k.name.toList) (hnew : s.has k = false)
    (h : k.Denotes c p.value) : p.Turns s (put c k s) := by
  obtain ⟨f, hf⟩ := k.exists_isReadBy
  have hfound := hname ▸ hf.found
  have hset := (hf.isSet s).trans hnew
  exact ⟨fun _ => Shape.readMembers_comma hfound hset (hf.takes h _),
    fun _ => Shape.readMembers_close hfound hset (hf.takes h _)⟩

/-- Reading members one after the other. -/
inductive Turned : CalculationFields → List Member → CalculationFields → Prop
  | nil {s : CalculationFields} : Turned s [] s
  | cons {p : Member} {ms : List Member} {s s' s'' : CalculationFields} (h : p.Turns s s')
      (hms : Turned s' ms s'') : Turned s (p :: ms) s''

theorem Turned.readMembers_led {ms : List Member} (h : Turned s ms s') (rest : List Token) :
    calculationShape.readMembers s (led ms ++ rest) = calculationShape.readMembers s' rest := by
  induction h with
  | nil => rfl
  | @cons p ms _ _ _ h hms ih =>
    have htext : led (p :: ms) ++ rest = p.tokens ++ .comma :: (led ms ++ rest) := by simp [led]
    rw [htext, h.comma, ih]

theorem Turned.readMembers_separated {ms : List Member} (h : Turned s ms s') (hne : ms ≠ [])
    (rest : List Token) :
    calculationShape.readMembers s (separated (ms.map tokens) ++ .closeObject :: rest)
      = .ok (s', rest) := by
  induction h with
  | nil => exact absurd rfl hne
  | @cons p ms _ _ _ h hms ih =>
    cases hms with
    | nil => exact h.close rest
    | @cons q ms _ _ _ h' hms' =>
      have htext : separated ((p :: q :: ms).map tokens) ++ .closeObject :: rest
          = p.tokens ++ .comma :: (separated ((q :: ms).map tokens) ++ .closeObject :: rest) := by
        simp [separated]
      rw [htext, h.comma, ih (List.cons_ne_nil q ms)]

theorem have_cons {p : Member} {ms : List Member} :
    Have (p :: ms) k ↔ p.name = k.name.toList ∨ Have ms k := by
  simp [Have]

/-- **Sound members are read**, and set the fields for which they are. -/
theorem AreSound.exists_turned {ms : List Member} (h : AreSound ms)
    (hnew : ∀ k, s.has k = true → ¬ Have ms k) :
    ∃ s', Turned s ms s' ∧ (∀ k, s'.has k = true ↔ s.has k = true ∨ Have ms k) ∧
      ∀ c, s.ArePartOf c → (∀ p ∈ ms, ∀ k : CalculationField, p.name = k.name.toList →
        k.Denotes c p.value) → s'.ArePartOf c := by
  induction ms generalizing s with
  | nil => exact ⟨s, .nil, by simp [Have], fun c hs _ => hs⟩
  | cons p ms ih =>
    have honce := List.pairwise_cons.1 h.once
    have hrest : AreSound ms :=
      ⟨fun q hq => h.values q (List.mem_cons_of_mem p hq),
        fun q hq => h.typed q (List.mem_cons_of_mem p hq), honce.2⟩
    by_cases hname : ∃ k : CalculationField, p.name = k.name.toList
    case pos =>
      obtain ⟨k, hk⟩ := hname
      obtain ⟨d, hd⟩ := h.typed p (by simp) k hk
      have hunset : s.has k = false :=
        Bool.eq_false_iff.2 fun hs => hnew k hs (have_cons.2 (.inl hk))
      have hnew' : ∀ j, (put d k s).has j = true → ¬ Have ms j := by
        intro j hj hhave
        rw [has_put, Bool.or_eq_true, beq_iff_eq] at hj
        rcases hj with rfl | hj
        · obtain ⟨q, hq, hqname⟩ := hhave
          exact honce.1 q hq j hk (hqname.trans hk.symm)
        · exact hnew j hj (have_cons.2 (.inr hhave))
      obtain ⟨s', hturned, hhas, hpart⟩ := ih hrest hnew'
      refine ⟨s', .cons (turns_field hk hunset hd) hturned, fun j => ?_, fun c hs hdenotes => ?_⟩
      · have hj : j = k ↔ p.name = j.name.toList :=
          ⟨fun h => h ▸ hk, fun h => CalculationField.name_toList_inj (h.symm.trans hk)⟩
        rw [hhas j, has_put, Bool.or_eq_true, beq_iff_eq, have_cons, ← hj]
        grind
      · refine hpart c ?_ fun q hq => hdenotes q (List.mem_cons_of_mem p hq)
        rw [CalculationField.put_eq_of_denotes hd (hdenotes p (by simp) k hk)]
        exact hs.put k
    case neg =>
      have hother : ∀ k : CalculationField, p.name ≠ k.name.toList := fun k hk => hname ⟨k, hk⟩
      obtain ⟨s', hturned, hhas, hpart⟩ := ih hrest fun j hj hhave =>
        hnew j hj (have_cons.2 (.inr hhave))
      refine ⟨s', .cons (turns_other hother (h.values p (by simp))) hturned, fun j => ?_,
        fun c hs hdenotes => hpart c hs fun q hq => hdenotes q (List.mem_cons_of_mem p hq)⟩
      rw [hhas j, have_cons]
      simp [hother j]

/-! ## 5. Objects -/

theorem has_empty (k : CalculationField) : calculationShape.empty.has k = false := by
  cases k <;> rfl

theorem AreSound.exists_turned_empty {ms : List Member} (h : AreSound ms) :
    ∃ s, Turned calculationShape.empty ms s ∧ (∀ k, s.has k = true ↔ Have ms k) ∧
      ∀ c, (∀ p ∈ ms, ∀ k : CalculationField, p.name = k.name.toList → k.Denotes c p.value) →
        s.ArePartOf c := by
  have hempty {k : CalculationField} {q : Prop} (hk : calculationShape.empty.has k = true) : q := by
    simp [has_empty] at hk
  obtain ⟨s, hturned, hhas, hpart⟩ := h.exists_turned fun k hk => hempty hk
  refine ⟨s, hturned, fun k => ?_, fun c => hpart c fun k hk => hempty hk⟩
  rw [hhas, has_empty]
  simp

theorem readFields_openObject {ts : List Token} (h : ∀ rest, ts ≠ .closeObject :: rest) :
    calculationShape.readFields (.openObject :: ts)
      = calculationShape.readMembers calculationShape.empty ts := by
  unfold Shape.readFields
  split <;> simp_all

theorem Turned.readFields_object {ms : List Member} (h : Turned calculationShape.empty ms s) :
    calculationShape.readFields (object ms) = .ok (s, []) := by
  cases ms with
  | nil =>
    cases h
    rfl
  | cons p ms =>
    have hread := h.readMembers_separated (List.cons_ne_nil p ms) []
    rw [object, readFields_openObject, hread]
    cases ms <;> simp [separated, tokens]

/-- Behind sound members, reading goes on with the next one. -/
theorem Turned.readFields_led {ms : List Member} (h : Turned calculationShape.empty ms s)
    (name : List Char) (ts : List Token) :
    calculationShape.readFields (.openObject :: (led ms ++ .string (some name) :: ts))
      = calculationShape.readMembers s (.string (some name) :: ts) := by
  rw [readFields_openObject, h.readMembers_led]
  cases ms <;> simp [led, tokens]

theorem readCalculation_of_error {ts : List Token} {e : Fault}
    (h : calculationShape.readFields ts = .error e) : readCalculation ts = .error e := by
  rw [readCalculation, Shape.read, h]

theorem readCalculation_of_finish {ts : List Token}
    (h : calculationShape.readFields ts = .ok (s, [])) (hfinish : s.finish = .ok c) :
    readCalculation ts = .ok c := by
  have hfinish : calculationShape.finish s = .ok c := hfinish
  rw [readCalculation, Shape.read, h]
  simp only [hfinish]
  rfl

/-- **Members in any order** are read as the calculation of which they are. -/
theorem AreOf.readCalculation_object {ms : List Member} (h : AreOf ms c) :
    readCalculation (object ms) = .ok c := by
  have hsound : AreSound ms := ⟨h.values, fun p hp k hk => ⟨c, h.denotes p hp k hk⟩, h.once⟩
  obtain ⟨s, hturned, hhas, hpart⟩ := hsound.exists_turned_empty
  exact readCalculation_of_finish hturned.readFields_object
    (finish_of_arePartOf (hpart c h.denotes) fun k => (hhas k).2 (h.complete k))

/-- The first field that is lacking is reported. -/
theorem AreSound.readCalculation_lacking {ms : List Member} (h : AreSound ms) (hk : ¬ Have ms k)
    (hbefore : ∀ j ∈ k.before, Have ms j) :
    readCalculation (object ms) = .error (.mismatch [] (.missingField k.name)) := by
  obtain ⟨s, hturned, hhas, -⟩ := h.exists_turned_empty
  have hunset : s.has k = false := Bool.eq_false_iff.2 fun hs => hk ((hhas k).1 hs)
  have hfinish : calculationShape.finish s = .error (.missingField k.name) :=
    finish_of_lacking hunset fun j hj => (hhas j).2 (hbefore j hj)
  rw [readCalculation, Shape.read, hturned.readFields_object]
  simp only [hfinish]

/-- A value that is not of the type of its field is reported, whatever is in front of the member
and behind it. -/
theorem AreSound.readCalculation_refused {ms : List Member} (h : AreSound ms) (hk : ¬ Have ms k)
    {f : Field CalculationFields} (hf : k.IsReadBy f) {v : List Token} {e : Fault}
    (he : ∀ rest, f.reader.run (v ++ rest) = .error e) (rest : List Token) :
    readCalculation (.openObject :: (led ms ++ tokens ⟨k.name.toList, v⟩) ++ rest)
      = .error (e.within (.field k.name)) := by
  obtain ⟨s, hturned, hhas, -⟩ := h.exists_turned_empty
  have hunset : f.isSet s = false :=
    (hf.isSet s).trans (Bool.eq_false_iff.2 fun hs => hk ((hhas k).1 hs))
  refine readCalculation_of_error ?_
  rw [List.cons_append, List.append_assoc, tokens, List.cons_append, hturned.readFields_led,
    List.cons_append, Shape.readMembers_error hf.found hunset (he rest), hf.name]

/-- A field that comes again is reported at its name. -/
theorem AreSound.readCalculation_again {ms : List Member} (h : AreSound ms) (hk : Have ms k)
    (rest : List Token) :
    readCalculation (.openObject :: (led ms ++ [.string (some k.name.toList)]) ++ rest)
      = .error (.mismatch [] (.duplicateField k.name)) := by
  obtain ⟨s, hturned, hhas, -⟩ := h.exists_turned_empty
  obtain ⟨f, hf⟩ := k.exists_isReadBy
  have hset : f.isSet s = true := (hf.isSet s).trans ((hhas k).2 hk)
  refine readCalculation_of_error ?_
  rw [List.cons_append, List.append_assoc, List.cons_append, hturned.readFields_led,
    Shape.readMembers_duplicate hf.found hset, hf.name]

end Member

end CalcJournal.Json
