import DocumentCommand.Integer
import DocumentCommand.Text.Digits

/-!
# Instants and the calendar

An instant is a count of milliseconds since the first of January 1970, UTC.  Dates are those of the
Gregorian calendar carried on in both directions; years may be zero or negative.

The text form of an instant is made for people: date, time and a zero offset, the fraction of the
second without trailing zeros.  Years of more than four digits have no such form, and the bare count
stands in for them.
-/

namespace DocumentCommand

/-- A date of the calendar. -/
structure Date where
  year : Int
  month : Nat
  day : Nat
deriving DecidableEq, Repr

namespace Date

/-- Is the year four hundredths of a cycle, or a fourth year that is no hundredth? -/
def isLeapYear (year : Int) : Bool :=
  year % 4 = 0 ∧ (year % 100 ≠ 0 ∨ year % 400 = 0)

/-- The number of days in a month. -/
def daysInMonth (year : Int) (month : Nat) : Nat :=
  if month = 2 then (if isLeapYear year then 29 else 28)
  else if month = 4 ∨ month = 6 ∨ month = 9 ∨ month = 11 then 30
  else 31

/-- Does the calendar hold this date? -/
def isReal (d : Date) : Bool :=
  1 ≤ d.month && d.month ≤ 12 && 1 ≤ d.day && d.day ≤ daysInMonth d.year d.month

/-- Days from the first of January 1970 to the date.  Years are counted from March, so that the
leap day is the last of its year. -/
def toDays (d : Date) : Int :=
  let year := if d.month ≤ 2 then d.year - 1 else d.year
  let monthFromMarch : Int := ((d.month + 9) % 12 : Nat)
  let dayOfYear := (153 * monthFromMarch + 2) / 5 + d.day - 1
  365 * year + year / 4 - year / 100 + year / 400 + dayOfYear - 719468

/-- The date that lies the given number of days after the first of January 1970. -/
def ofDays (days : Int) : Date :=
  let shifted := days + 719468
  let era := shifted / 146097
  let dayOfEra := shifted % 146097
  let yearOfEra := (dayOfEra - dayOfEra / 1460 + dayOfEra / 36524 - dayOfEra / 146096) / 365
  let dayOfYear := dayOfEra - (365 * yearOfEra + yearOfEra / 4 - yearOfEra / 100)
  let monthFromMarch := (5 * dayOfYear + 2) / 153
  let day := dayOfYear - (153 * monthFromMarch + 2) / 5 + 1
  let month := if monthFromMarch < 10 then monthFromMarch + 3 else monthFromMarch - 9
  let year := yearOfEra + 400 * era + (if month ≤ 2 then 1 else 0)
  ⟨year, month.toNat, day.toNat⟩

end Date

/-- A point in time in milliseconds. -/
structure Instant where
  milliseconds : Int64
deriving DecidableEq, Repr, Inhabited

namespace Instant

/-- The instant a number of milliseconds after the start of 1970, none outside 64 bits. -/
def ofMilliseconds? (n : Int) : Option Instant :=
  (Integer.int64? n).map Instant.mk

/-- The instant of a count of seconds and of nanoseconds after them, cut down to the millisecond and
kept within 64 bits. -/
def ofSeconds (seconds : Int) (nanoseconds : Nat) : Instant :=
  let count := seconds * 1000 + nanoseconds / 1000000
  (ofMilliseconds? count).getD ⟨if count < 0 then Int64.minValue else Int64.maxValue⟩

/-- The last instant whose year has four digits. -/
def latestWritten : Instant :=
  ⟨253402300799999⟩

/-- The instant, or the last one whose year has four digits where it is later than that. -/
def withinYears (t : Instant) : Instant :=
  if latestWritten.milliseconds < t.milliseconds then latestWritten else t

/-- A year of at least four digits, a minus sign in front of them where it is negative. -/
def yearText (year : Int) : List Char :=
  (if year < 0 then ['-'] else []) ++ Text.Digits.padded 4 year.natAbs

/-- The fraction of a second without trailing zeros, at least one digit. -/
def fractionText (milliseconds : Nat) : List Char :=
  match Text.Digits.padded 3 milliseconds with
  | [a, '0', '0'] => [a]
  | [a, b, '0'] => [a, b]
  | digits => digits

/-- Date, time of day and offset; the hour is not padded. -/
def text (t : Instant) : List Char :=
  let count := t.milliseconds.toInt
  let date := Date.ofDays (count / 86400000)
  if date.year < -9999 ∨ 9999 < date.year then Text.Digits.ofInt count
  else
    let ofDay := (count % 86400000).toNat
    let two := Text.Digits.padded 2
    yearText date.year ++ '-' :: two date.month ++ '-' :: two date.day ++ ' ' ::
      Text.Digits.ofNat (ofDay / 3600000) ++ ':' :: two (ofDay / 60000 % 60) ++ ':' ::
      two (ofDay / 1000 % 60) ++ '.' :: fractionText (ofDay % 1000) ++ " +00:00:00".toList

end Instant

end DocumentCommand
