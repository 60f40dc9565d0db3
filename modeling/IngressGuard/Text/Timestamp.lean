import IngressGuard.Text.Digits

/-!
# Timestamps

Moments on the UTC time line, read and written in the form of RFC 3339.  Writing shows 0, 3, 6 or
9 fraction digits, as few as keep the value.
-/

namespace IngressGuard

/-- A moment: seconds since 1970-01-01T00:00:00Z, and nanoseconds within the second.  During a
leap second the nanoseconds run past 999999999. -/
structure Timestamp where
  seconds : Int
  nanos : Nat
  deriving DecidableEq, Repr

namespace Timestamp

open Text

/-! ## Calendar -/

/-- The number of days from 1970-01-01 to a date of the Gregorian calendar. -/
def daysFromDate (year : Int) (month day : Nat) : Int :=
  -- Years are counted from March, so that the leap day is the last day of a year.
  let y := if month ≤ 2 then year - 1 else year
  let era := y.fdiv 400
  let yearOfEra := y - era * 400
  let dayOfYear : Int := ((153 * ((month + 9) % 12) + 2) / 5 + day - 1 : Nat)
  let dayOfEra := yearOfEra * 365 + yearOfEra / 4 - yearOfEra / 100 + dayOfYear
  era * 146097 + dayOfEra - 719468

/-- The date of the Gregorian calendar at a number of days from 1970-01-01. -/
def dateFromDays (days : Int) : Int × Nat × Nat :=
  let shifted := days + 719468
  let era := shifted.fdiv 146097
  let dayOfEra := (shifted - era * 146097).toNat
  let yearOfEra := (dayOfEra - dayOfEra / 1460 + dayOfEra / 36524 - dayOfEra / 146096) / 365
  let dayOfYear := dayOfEra - (365 * yearOfEra + yearOfEra / 4 - yearOfEra / 100)
  let m := (5 * dayOfYear + 2) / 153
  let day := dayOfYear - (153 * m + 2) / 5 + 1
  let month := if m < 10 then m + 3 else m - 9
  let year := era * 400 + (yearOfEra : Int) + (if month ≤ 2 then 1 else 0)
  (year, month, day)

/-- Whether a year has a leap day. -/
def isLeapYear (year : Int) : Bool :=
  year % 4 == 0 && (year % 100 != 0 || year % 400 == 0)

/-- The number of days of a month. -/
def daysInMonth (year : Int) (month : Nat) : Nat :=
  if month = 2 then (if isLeapYear year then 29 else 28)
  else if month = 4 ∨ month = 6 ∨ month = 9 ∨ month = 11 then 30 else 31

/-! ## Reading -/

/-- Takes a number of a fixed count of decimal digits. -/
def takeNumber? (count : Nat) (cs : List Char) : Option (Nat × List Char) := do
  let digits := cs.take count
  if digits.length = count then
    return (← natOfDigits? 10 digits, cs.drop count)
  else none

/-- Takes one of some characters. -/
def takeChar? (accepted : List Char) : List Char → Option (List Char)
  | c :: rest => if accepted.contains c then some rest else none
  | [] => none

/-- Takes the fraction of a second, in nanoseconds; digits after the ninth are ignored. -/
def takeFraction? : List Char → Option (Nat × List Char)
  | '.' :: rest => do
    let digits := rest.takeWhile Char.isDigit
    let n ← natOfDigits? 10 ((digits ++ List.replicate 9 '0').take 9)
    if digits.isEmpty then none else return (n, rest.dropWhile Char.isDigit)
  | cs => some (0, cs)

/-- Takes a zone, as seconds east of UTC. -/
def takeZone? : List Char → Option (Int × List Char)
  | 'Z' :: rest | 'z' :: rest => some (0, rest)
  | sign :: rest => do
    let (hours, rest) ← takeNumber? 2 rest
    let rest ← takeChar? [':'] rest
    let (minutes, rest) ← takeNumber? 2 rest
    let offset : Int := (hours * 3600 + minutes * 60 : Nat)
    if hours < 24 ∧ minutes < 60 ∧ (sign = '+' ∨ sign = '-') then
      return (if sign = '-' then -offset else offset, rest)
    else none
  | [] => none

/-- Reads a timestamp. -/
def ofText? (text : String) : Option Timestamp := do
  let (year, cs) ← takeNumber? 4 text.toList
  let cs ← takeChar? ['-'] cs
  let (month, cs) ← takeNumber? 2 cs
  let cs ← takeChar? ['-'] cs
  let (day, cs) ← takeNumber? 2 cs
  let cs ← takeChar? ['T', 't', ' '] cs
  let (hour, cs) ← takeNumber? 2 cs
  let cs ← takeChar? [':'] cs
  let (minute, cs) ← takeNumber? 2 cs
  let cs ← takeChar? [':'] cs
  let (second, cs) ← takeNumber? 2 cs
  let (fraction, cs) ← takeFraction? cs
  let (offset, cs) ← takeZone? cs
  if cs.isEmpty ∧ 1 ≤ month ∧ month ≤ 12 ∧ 1 ≤ day ∧ day ≤ daysInMonth year month ∧
      hour < 24 ∧ minute < 60 ∧ second ≤ 60 then
    let leap := second == 60
    let time := hour * 3600 + minute * 60 + (if leap then 59 else second)
    let seconds := daysFromDate year month day * 86400 + (time : Int) - offset
    return ⟨seconds, if leap then fraction + 1000000000 else fraction⟩
  else none

/-! ## Writing -/

/-- Two decimal digits. -/
def twoDigits (n : Nat) : List Char := paddedDigits 2 n

/-- A year: four digits, or a sign and at least four digits. -/
def yearChars (year : Int) : List Char :=
  if 0 ≤ year ∧ year ≤ 9999 then paddedDigits 4 year.toNat
  else (if year < 0 then '-' else '+') :: paddedDigits 4 year.natAbs

/-- The fraction of a second, in as few groups of three digits as keep it. -/
def fractionChars (nanos : Nat) : List Char :=
  if nanos = 0 then []
  else if nanos % 1000000 = 0 then '.' :: paddedDigits 3 (nanos / 1000000)
  else if nanos % 1000 = 0 then '.' :: paddedDigits 6 (nanos / 1000)
  else '.' :: paddedDigits 9 nanos

/-- The written form of a timestamp. -/
def text (t : Timestamp) : String :=
  let days := t.seconds.fdiv 86400
  let time := (t.seconds - days * 86400).toNat
  let (year, month, day) := dateFromDays days
  let second := time % 60 + t.nanos / 1000000000
  String.ofList <|
    yearChars year ++ '-' :: twoDigits month ++ '-' :: twoDigits day ++ 'T' ::
      twoDigits (time / 3600) ++ ':' :: twoDigits (time / 60 % 60) ++ ':' :: twoDigits second ++
      fractionChars (t.nanos % 1000000000) ++ ['Z']

end Timestamp

end IngressGuard
