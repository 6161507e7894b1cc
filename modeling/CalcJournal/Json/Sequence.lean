/-
CalcJournal.Json.Sequence — records and lists of values inside a text.

A record that is a part of a longer text is read like one that is the whole of it, up to its
last bracket. A list of values is written as an array. Its elements are read one after the
other, each by the same reader, and the first fault is the one reported.
-/
import CalcJournal.Json.Shape

namespace CalcJournal.Json

namespace Shape

variable {σ α : Type} {shape : Shape σ α}

/-! ## Reading a record shortens the tokens -/

theorem length_of_readMembers {s t : σ} {ts rest : List Token}
    (h : shape.readMembers s ts = .ok (t, rest)) : rest.length < ts.length := by
  fun_induction readMembers shape s ts generalizing t rest
  case case1 hskip ih =>
    have hlt := length_skip_lt hskip
    have hrest := ih h
    simp only [List.length_cons] at hlt ⊢
    omega
  case case2 hskip =>
    have hlt := length_skip_lt hskip
    obtain ⟨-, rfl⟩ := Prod.mk.inj (Except.ok.inj h)
    simp only [List.length_cons] at hlt ⊢
    omega
  case case7 hread ih =>
    have hlt := Reader.shorter _ hread
    have hrest := ih h
    simp only [List.length_cons] at hlt ⊢
    omega
  case case8 hread =>
    have hlt := Reader.shorter _ hread
    obtain ⟨-, rfl⟩ := Prod.mk.inj (Except.ok.inj h)
    simp only [List.length_cons] at hlt ⊢
    omega
  all_goals simp at h

theorem length_of_element? {index : Nat} {ts rest : List Token}
    (h : element? index ts = some rest) : rest.length ≤ ts.length := by
  unfold element? at h
  split at h
  · simp at h
  · split at h
    · simp at h
    · rw [← Option.some.inj h, List.length_cons]
      omega
  · split at h
    · obtain rfl := Option.some.inj h
      exact Nat.le_refl _
    · simp at h

theorem length_of_readElements {index : Nat} {s t : σ} {fields : List (Field σ)}
    {ts rest : List Token} (h : shape.readElements index s fields ts = .ok (t, rest)) :
    rest.length < ts.length := by
  fun_induction readElements shape index s fields ts generalizing t rest
  case case1 =>
    obtain ⟨-, rfl⟩ := Prod.mk.inj (Except.ok.inj h)
    simp
  case case6 helement _ _ hread ih =>
    have hle := length_of_element? helement
    have hlt := Reader.shorter _ hread
    have hrest := ih h
    omega
  all_goals simp at h

theorem length_of_readFields {s : σ} {ts rest : List Token}
    (h : shape.readFields ts = .ok (s, rest)) : rest.length < ts.length := by
  unfold readFields at h
  split at h
  · obtain ⟨-, rfl⟩ := Prod.mk.inj (Except.ok.inj h)
    simp only [List.length_cons]
    omega
  · exact Nat.lt_succ_of_lt (length_of_readMembers h)
  · exact Nat.lt_succ_of_lt (length_of_readElements h)
  · simp at h

/-! ## Records inside a text -/

/-- The record at the front, with what follows it. -/
def readFront (shape : Shape σ α) (ts : List Token) : Except Fault (α × List Token) :=
  match shape.readFields ts with
  | .error e => .error e
  | .ok (s, rest) =>
    match shape.finish s with
    | .error cause => .error (.mismatch [] cause)
    | .ok a => .ok (a, rest)

/-- A record. -/
def reader (shape : Shape σ α) : Reader α where
  run := shape.readFront
  shorter {ts rest a} h := by
    unfold readFront at h
    split at h
    · simp at h
    · split at h
      · simp at h
      · obtain ⟨-, rfl⟩ := Prod.mk.inj (Except.ok.inj h)
        exact length_of_readFields ‹_›

end Shape

/-! ## Lists -/

/-- Reads values with commas between them, up to the end of the array; `index` values have
been read. -/
def readItems {β : Type} (r : Reader β) (index : Nat) (ts : List Token) :
    Except Fault (List β × List Token) :=
  match _h : r.run ts with
  | .error e => .error (e.within (.element index))
  | .ok (b, .comma :: rest) =>
    match readItems r (index + 1) rest with
    | .error e => .error e
    | .ok (bs, after) => .ok (b :: bs, after)
  | .ok (b, .closeArray :: rest) => .ok ([b], rest)
  | .ok _ => .error .malformed
termination_by ts.length
decreasing_by
  have := r.shorter _h
  simp only [List.length_cons] at this
  omega

/-- The list of values that a whole text is. -/
def readList {β : Type} (r : Reader β) : List Token → Except Fault (List β)
  | .openArray :: .closeArray :: rest => if rest.isEmpty then .ok [] else .error .malformed
  | .openArray :: ts =>
    match readItems r 0 ts with
    | .error e => .error e
    | .ok (bs, rest) => if rest.isEmpty then .ok bs else .error .malformed
  | ts => .error (.wrongType "a sequence" ts)

end CalcJournal.Json
