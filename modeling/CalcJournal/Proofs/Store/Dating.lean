/-
CalcJournal.Proofs.Store.Dating — what is lost of a date that is kept.

The store cuts a date to microseconds, answers that, and writes a text of it with six fraction
digits. The cut is made twice, on the line of time by what is answered and among the digits by
what is written, and both come to the same (`Instant.ofText?_text`,
`Instant.cutsTo_toMicroseconds`). So a date loses what it has over whole microseconds. A leap
second within a minute also loses its place: its text is that of the second behind it, and is
read back as that. No two other dates that were cut share a text.
-/
import CalcJournal.Proofs.Calendar.Timeline
import CalcJournal.Proofs.Store.Rewriting

namespace CalcJournal

namespace Store

variable {s : Store}

/-- The calculation that is answered to a draft has its date, cut to microseconds. -/
theorem created_of_create {draft : Draft} {filed : Calculation}
    (h : (s.create draft).1 = .ok filed) : filed.created = draft.created.toMicroseconds := by
  rcases s.create_cases draft with ⟨id, fresh, -, hcreate⟩ | ⟨-, hcreate⟩
  · rw [hcreate] at h
    obtain rfl := Except.ok.inj h
    rfl
  · rw [hcreate] at h
    simp at h

/-- The calculation that is answered to an update has its date, cut to microseconds. -/
theorem created_of_update {c written : Calculation}
    (h : (s.update c).1 = .ok written) : written.created = c.created.toMicroseconds := by
  rcases s.update_cases c with ⟨row, -, hupdate⟩ | ⟨-, hupdate⟩
  · rw [hupdate] at h
    obtain rfl := Except.ok.inj h
    rfl
  · rw [hupdate] at h
    simp at h

end Store

/-- **What is read of a date that was kept.** The dates are all points of the line from the first
day of the calendar to the last, and any second may be carried on. The text of each is read back
as the date cut to microseconds and as it is written then, so as the cut date itself exactly when
its leap second, if it is in one, ends a minute; a leap second within a minute is read a second
further. The cut date is no later, less than a microsecond earlier, and in the same second, be
that a leap second or not; to cut it once more changes nothing. Dates that were cut have the same
text exactly when they are written alike, so only if they are the same or a leap second within a
minute is among them. And the date that was cut is the one that is answered when a calculation is
filed or written over. -/
theorem Instant.ofText?_text_toMicroseconds (t u : Instant) :
    (∀ (seconds : Int) (nanoseconds : Nat),
      (∃ t : Instant, t.seconds = seconds ∧ t.nanoseconds = nanoseconds) ↔
        OnLine seconds nanoseconds) ∧
    ofText? (t.text .microseconds) = some t.toMicroseconds.asWritten ∧
    (t.toMicroseconds.asWritten = t.toMicroseconds ↔ t.IsRegular) ∧
    (¬ t.IsRegular → t.toMicroseconds.asWritten.seconds = t.toMicroseconds.seconds + 1 ∧
      t.toMicroseconds.nanoseconds = t.toMicroseconds.asWritten.nanoseconds + 1000000000) ∧
    t.CutsTo t.toMicroseconds ∧ t.toMicroseconds.toMicroseconds = t.toMicroseconds ∧
    (t.toMicroseconds.text .microseconds = u.toMicroseconds.text .microseconds ↔
      t.toMicroseconds.asWritten = u.toMicroseconds.asWritten) ∧
    (t.IsRegular → u.IsRegular →
      t.toMicroseconds.text .microseconds = u.toMicroseconds.text .microseconds →
        t.toMicroseconds = u.toMicroseconds) ∧
    ∀ (s : Store) (draft : Draft) (c : Calculation),
      (∀ filed, (s.create draft).1 = .ok filed →
        filed.created = draft.created.toMicroseconds) ∧
      ∀ written, (s.update c).1 = .ok written →
        written.created = c.created.toMicroseconds := by
  have hshown : ∀ t : Instant, t.toMicroseconds.asWritten = t.toMicroseconds ↔ t.IsRegular := by
    intro t
    rw [asWritten_eq_self_iff, isRegular_toMicroseconds]
  have htexts : t.toMicroseconds.text .microseconds = u.toMicroseconds.text .microseconds ↔
      t.toMicroseconds.asWritten = u.toMicroseconds.asWritten := by
    rw [text_toMicroseconds, text_toMicroseconds]
    exact text_eq_iff
  refine ⟨exists_iff_onLine, ofText?_text .microseconds t, hshown t, ?_, t.cutsTo_toMicroseconds,
    t.toMicroseconds_toMicroseconds, htexts, ?_, ?_⟩
  · intro hwithin
    exact asWritten_on_line (mt isRegular_toMicroseconds.1 hwithin)
  · intro ht hu h
    rw [← (hshown t).2 ht, htexts.1 h, (hshown u).2 hu]
  · intro s draft c
    exact ⟨fun filed => Store.created_of_create, fun written => Store.created_of_update⟩

/-- The last nanosecond of a leap second, before the year zero. -/
def lastNanosecond : Instant where
  date := ⟨-1, 12, 31, by decide⟩
  time := ⟨23, 59, 59, 1999999999, by decide, by decide, by decide, by decide⟩

/-- A leap second of the year before the year zero is filed and stays one. -/
theorem Instant.ofText?_text_lastNanosecond :
    lastNanosecond.text .microseconds = "-0001-12-31T23:59:60.999999Z" ∧
    lastNanosecond.seconds = -62167219201 ∧ lastNanosecond.nanoseconds = 1999999999 ∧
    ofText? (lastNanosecond.text .microseconds) = some lastNanosecond.toMicroseconds ∧
    ∃ filed, (Store.empty.create ⟨.other, "1", lastNanosecond, .zero false⟩).1 = .ok filed ∧
      filed.created.time.second = 59 ∧ filed.created.nanoseconds = 1999999000 := by
  obtain ⟨-, hread, hshown, -, hcuts, -, -, -, hanswered⟩ :=
    ofText?_text_toMicroseconds lastNanosecond lastNanosecond
  rw [hshown.2 (by decide)] at hread
  refine ⟨by decide +kernel, by decide +kernel, rfl, hread, _, rfl, ?_⟩
  rw [(hanswered Store.empty ⟨.other, "1", lastNanosecond, .zero false⟩
    ⟨⟨1, by decide, by decide⟩, .other, "1", lastNanosecond, .zero false⟩).1 _ rfl]
  exact ⟨hcuts.second_eq, hcuts.nanoseconds_eq⟩

/-- A leap second within a minute is whole microseconds, and its text is read back as another
date, which has the same text. -/
theorem Instant.ofText?_text_leapWithinMinute :
    leapWithinMinute.toMicroseconds = leapWithinMinute ∧
    leapWithinMinute.text .microseconds = "2024-03-04T09:20:16.500000Z" ∧
    ∃ read, ofText? (leapWithinMinute.text .microseconds) = some read ∧
      read ≠ leapWithinMinute ∧ read.toMicroseconds = read ∧
      read.text .microseconds = leapWithinMinute.text .microseconds := by
  have hcut : leapWithinMinute.toMicroseconds = leapWithinMinute := by decide
  have hread := ofText?_text .microseconds leapWithinMinute
  rw [kept, hcut] at hread
  exact ⟨hcut, by decide +kernel, _, hread, by decide, by decide, text_asWritten _ _⟩

end CalcJournal
