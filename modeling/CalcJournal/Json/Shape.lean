/-
CalcJournal.Json.Shape — records of named fields, read from the tokens of a text.

A record is written as an object with its fields in any order, or as an array with
the fields in the order of the record. In an object, fields that the record does
not have are passed over, no field may be given twice, and which fields are lacking
is settled at its end. In an array every field must be there, and nothing else.

Tokens are read from left to right, and the first fault is the one reported. The
text must end with the record.
-/
import CalcJournal.Json.Fault
import CalcJournal.Json.Skip

namespace CalcJournal.Json

/-! ## Readers -/

/-- Reads a value from the front of a sequence of tokens, of which it takes at least one. -/
structure Reader (β : Type) where
  run : List Token → Except Fault (β × List Token)
  shorter : ∀ {ts rest : List Token} {b : β}, run ts = .ok (b, rest) → rest.length < ts.length

namespace Reader

/-- The reader of a value that is a single token. -/
def ofToken {β : Type} (f : Token → Except Fault β) : Reader β where
  run
    | [] => .error .malformed
    | t :: rest => (f t).map fun b => (b, rest)
  shorter {ts rest b} h := by
    cases ts with
    | nil => simp at h
    | cons t ts =>
      cases hf : f t with
      | error e => simp [hf, Except.map] at h
      | ok b => simp_all [Except.map]

end Reader

/-- A field of a record that is being filled in. -/
structure Field (σ : Type) where
  name : String
  isSet : σ → Bool
  reader : Reader (σ → σ)

/-- The field of a name, with how it is looked up and set, and a reader of its values. -/
def Field.of {σ β : Type} (name : String) (get : σ → Option β) (set : β → σ → σ)
    (r : Reader β) : Field σ where
  name := name
  isSet s := (get s).isSome
  reader :=
    { run := fun ts => (r.run ts).map fun (b, rest) => (set b, rest)
      shorter := by
        intro ts rest f h
        cases hr : r.run ts with
        | error e => simp [hr, Except.map] at h
        | ok p =>
          obtain ⟨b, after⟩ := p
          have := r.shorter hr
          simp_all [Except.map] }

/-- A kind of record: what it is called, how many fields an array of it has, its fields in
order, and how a record is made of them when none is lacking. -/
structure Shape (σ α : Type) where
  name : String
  size : String
  empty : σ
  fields : List (Field σ)
  finish : σ → Except Mismatch α

namespace Shape

variable {σ α : Type}

/-! ## Objects -/

/-- The field of a name. -/
def field? (shape : Shape σ α) (name : List Char) : Option (Field σ) :=
  shape.fields.find? fun f => f.name == String.ofList name

/-- Reads members from the first name on, up to the end of the object. -/
def readMembers (shape : Shape σ α) (s : σ) : List Token → Except Fault (σ × List Token)
  | .string (some name) :: ts =>
    match shape.field? name with
    | none =>
      match ts with
      | .colon :: ts =>
        match _h : skip admitsAny ts with
        | some (.comma :: rest) => shape.readMembers s rest
        | some (.closeObject :: rest) => .ok (s, rest)
        | _ => .error .malformed
      | _ => .error .malformed
    | some f =>
      if f.isSet s then .error (.mismatch [] (.duplicateField f.name))
      else
        match ts with
        | .colon :: ts =>
          match _h : f.reader.run ts with
          | .error e => .error (e.within (.field f.name))
          | .ok (set, .comma :: rest) => shape.readMembers (set s) rest
          | .ok (set, .closeObject :: rest) => .ok (set s, rest)
          | .ok _ => .error .malformed
        | _ => .error .malformed
  | _ => .error .malformed
termination_by ts => ts.length
decreasing_by
  · have := length_skip_lt _h
    simp only [List.length_cons] at this ⊢; omega
  · have := f.reader.shorter _h
    simp only [List.length_cons] at this ⊢; omega

/-! ## Arrays -/

/-- What follows the mark before an element: nothing stands before the first, and a comma
before every other. -/
def element? (index : Nat) : List Token → Option (List Token)
  | .comma :: .closeArray :: _ => none
  | .comma :: rest => if index = 0 then none else some rest
  | ts => if index = 0 then some ts else none

/-- Reads the values of the remaining fields, up to the end of the array; `index` fields
have been read. -/
def readElements (shape : Shape σ α) (index : Nat) (s : σ) :
    List (Field σ) → List Token → Except Fault (σ × List Token)
  | [], .closeArray :: rest => .ok (s, rest)
  | [], _ => .error .malformed
  | _ :: _, .closeArray :: _ =>
    .error (.mismatch [] (.invalidLength index (shape.name ++ " with " ++ shape.size)))
  | f :: fields, ts =>
    match element? index ts with
    | none => .error .malformed
    | some ts =>
      match f.reader.run ts with
      | .error e => .error (e.within (.element index))
      | .ok (set, rest) => shape.readElements (index + 1) (set s) fields rest

/-! ## Whole texts -/

/-- The fields of the record at the front, with what follows it. -/
def readFields (shape : Shape σ α) : List Token → Except Fault (σ × List Token)
  | .openObject :: .closeObject :: rest => .ok (shape.empty, rest)
  | .openObject :: ts => shape.readMembers shape.empty ts
  | .openArray :: ts => shape.readElements 0 shape.empty shape.fields ts
  | ts => .error (.wrongType shape.name ts)

/-- The record that a whole text is. -/
def read (shape : Shape σ α) (ts : List Token) : Except Fault α :=
  match shape.readFields ts with
  | .error e => .error e
  | .ok (s, rest) =>
    match shape.finish s with
    | .error cause => .error (.mismatch [] cause)
    | .ok a => if rest.isEmpty then .ok a else .error .malformed

end Shape

end CalcJournal.Json
