/-
CalcJournal.Calendar.Rfc3339 — the text of an instant.

An instant is written in UTC as `2024-01-15T10:30:00.123456Z`. Years from 0 to
9999 have four digits; other years have a sign and at least four. The fraction
has either exactly six digits, or the fewest of 0, 3, 6 and 9 that lose nothing.
A leap second is written as the second after the one that it carries on.

Reading is more generous. Numbers need not be padded, and blanks may stand before
every number and before every separator of the date and the time; `t` or a space
may stand for `T`; the fraction may have any number of digits, of which nine
count; and the zone is `Z`, `UTC`, or a sign with two digits of hours and two of
minutes, between which colons and blanks are skipped.
-/
import CalcJournal.Calendar.Instant
import CalcJournal.Text.Blank
import CalcJournal.Text.Digits

namespace CalcJournal

namespace Rfc3339

open Text

/-! ## Writing -/

/-- How many digits of the second's fraction are written. -/
inductive Precision where
  /-- Exactly six. -/
  | microseconds
  /-- The fewest of 0, 3, 6 and 9 that lose nothing. -/
  | fewest
  deriving DecidableEq, Repr

/-- The text of a year. -/
def yearChars (year : Int) : List Char :=
  if 0 ≤ year ∧ year ≤ 9999 then padded 4 year.natAbs
  else (if year < 0 then '-' else '+') :: padded 4 year.natAbs

/-- The text of the second's fraction. -/
def fractionChars (p : Precision) (nanosecond : Nat) : List Char :=
  match p with
  | .microseconds => '.' :: padded 6 (nanosecond / 1000)
  | .fewest =>
    if nanosecond = 0 then []
    else if nanosecond % 1000000 = 0 then '.' :: padded 3 (nanosecond / 1000000)
    else if nanosecond % 1000 = 0 then '.' :: padded 6 (nanosecond / 1000)
    else '.' :: padded 9 nanosecond

/-- The text of a day. -/
def dateChars (d : Date) : List Char :=
  yearChars d.year ++ '-' :: (padded 2 d.month ++ '-' :: padded 2 d.day)

/-- The text of a time of day. -/
def timeChars (p : Precision) (t : TimeOfDay) : List Char :=
  padded 2 t.hour ++ ':' :: (padded 2 t.minute ++ ':' ::
    (padded 2 t.writtenSecond ++ fractionChars p t.writtenNanosecond))

/-- The text of an instant. -/
def instantChars (p : Precision) (t : Instant) : List Char :=
  dateChars t.date ++ 'T' :: (timeChars p t.time ++ ['Z'])

/-! ## Reading numbers and separators -/

/-- One to `most` digits at the front, as a number, with what follows them. -/
def digits? (most : Nat) (cs : List Char) : Option (Nat × List Char) :=
  let ds := (cs.take most).takeWhile Char.isDigit
  if ds.isEmpty then none else some (digitsValue ds, cs.drop ds.length)

/-- All digits at the front, at least one, as a number, with what follows them. -/
def allDigits? (cs : List Char) : Option (Nat × List Char) := digits? cs.length cs

/-- A number of one or two digits, behind any blanks. -/
def number? (cs : List Char) : Option (Nat × List Char) := digits? 2 (dropBlanks cs)

/-- A year, behind any blanks: up to four digits, or a sign and any number of them. -/
def year? (cs : List Char) : Option (Int × List Char) :=
  match dropBlanks cs with
  | '-' :: r => (allDigits? r).map fun (n, rest) => (-(n : Int), rest)
  | '+' :: r => (allDigits? r).map fun (n, rest) => ((n : Int), rest)
  | r => (digits? 4 r).map fun (n, rest) => ((n : Int), rest)

/-- What follows a separator, behind any blanks. -/
def separator? (c : Char) (cs : List Char) : Option (List Char) :=
  match dropBlanks cs with
  | d :: rest => if d = c then some rest else none
  | [] => none

/-- The nanoseconds of a fraction, if one stands at the front; digits behind the ninth
are dropped. -/
def fraction? (cs : List Char) : Option (Nat × List Char) :=
  match cs with
  | '.' :: r =>
    let ds := r.takeWhile Char.isDigit
    if ds.isEmpty then none
    else some (digitsValue ((ds ++ List.replicate 9 '0').take 9), r.dropWhile Char.isDigit)
  | _ => some (0, cs)

/-! ## Reading the parts of an instant -/

/-- A day at the front of a text. -/
def date? (cs : List Char) : Option ((Int × Nat × Nat) × List Char) := do
  let (year, cs) ← year? cs
  let cs ← separator? '-' cs
  let (month, cs) ← number? cs
  let cs ← separator? '-' cs
  let (day, cs) ← number? cs
  return ((year, month, day), cs)

/-- A time of day at the front of a text. -/
def time? (cs : List Char) : Option ((Nat × Nat × Nat × Nat) × List Char) := do
  let (hour, cs) ← number? cs
  let cs ← separator? ':' cs
  let (minute, cs) ← number? cs
  let cs ← separator? ':' cs
  let (second, cs) ← number? cs
  let (nanosecond, cs) ← fraction? cs
  return ((hour, minute, second, nanosecond), cs)

/-- The mark between the day and the time. -/
def isTimeMark (c : Char) : Bool := c == 'T' || c == 't' || c == ' '

/-- The minus signs that an offset may have: the hyphen and the typographic minus. -/
def isOffsetMinus (c : Char) : Bool := c == '-' || c == '\u2212'

/-- Two digits at the front, as a number, with what follows them. -/
def twoDigits? : List Char → Option (Nat × List Char)
  | a :: b :: rest =>
    if a.isDigit && b.isDigit then some (digitsValue [a, b], rest) else none
  | _ => none

/-- The minutes of an offset behind its sign: hours, any colons and blanks, minutes. -/
def offsetMinutes? (cs : List Char) : Option (Nat × List Char) := do
  let (hours, cs) ← twoDigits? cs
  let (minutes, cs) ← twoDigits? (cs.dropWhile fun c => c == ':' || isBlank c)
  if minutes < 60 ∧ hours < 24 then return (hours * 60 + minutes, cs) else none

/-- The zone at the front of a text, as the minutes by which it is ahead of UTC. -/
def zone? (cs : List Char) : Option (Int × List Char) :=
  if (cs.take 3).map Char.toUpper = ['U', 'T', 'C'] then some (0, cs.drop 3)
  else match cs with
    | [] => none
    | c :: rest =>
      if c = 'Z' ∨ c = 'z' then some (0, rest)
      else if c = '+' then (offsetMinutes? rest).map fun (m, rest) => ((m : Int), rest)
      else if isOffsetMinus c then (offsetMinutes? rest).map fun (m, rest) => (-(m : Int), rest)
      else none

/-! ## Reading an instant -/

/-- The instant that a text writes; blanks may stand behind it. -/
def readChars? (cs : List Char) : Option Instant := do
  let ((year, month, day), cs) ← date? cs
  match cs with
  | [] => none
  | mark :: cs =>
    if !isTimeMark mark then none
    else
      let ((hour, minute, second, nanosecond), cs) ← time? cs
      let (offset, cs) ← zone? (dropBlanks cs)
      if !allBlank cs then none
      else
        let date ← Date.of? year month day
        let time ← TimeOfDay.of? hour minute second nanosecond
        Instant.ofLocal? date time offset

end Rfc3339

namespace Instant

/-- The instant as text in UTC. -/
def text (p : Rfc3339.Precision) (t : Instant) : String :=
  String.ofList (Rfc3339.instantChars p t)

/-- The instant that a text writes, if it writes one. -/
def ofText? (s : String) : Option Instant := Rfc3339.readChars? s.toList

end Instant

end CalcJournal
