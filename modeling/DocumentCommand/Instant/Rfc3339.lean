import DocumentCommand.Instant.Basic

/-!
# Reading RFC 3339 timestamps

A timestamp is a date of the calendar, any one ASCII character, a time of day and an offset.
Digits of the fraction after the ninth are read over.  A leap second is accepted where one can
occur, in the last second of a month in UTC, and counts as the last nanosecond before it.
-/

namespace DocumentCommand.Instant

open Text.Digits (readFixed? expect?)

/-- The nanoseconds of a fraction, if there is one, and what follows it. -/
def readFraction? : List Char → Option (Nat × List Char)
  | '.' :: rest =>
    let digits := rest.takeWhile Char.isDigit
    if digits = [] then none
    else
      let nine := (digits ++ List.replicate 9 '0').take 9
      some (Text.Digits.value nine, rest.dropWhile Char.isDigit)
  | text => some (0, text)

/-- The offset in minutes; nothing may follow it. -/
def readOffset? : List Char → Option Int
  | ['Z'] | ['z'] => some 0
  | sign :: rest => do
    guard (sign = '+' || sign = '-')
    let (hours, rest) ← readFixed? 2 rest
    let rest ← expect? ':' rest
    let (minutes, rest) ← readFixed? 2 rest
    guard (rest = [] && hours ≤ 23 && minutes ≤ 59)
    let total : Int := (60 * hours + minutes : Nat)
    return if sign = '-' then -total else total
  | [] => none

/-- Is the second, counted from 1970, the last one of a month? -/
def endsMonth (second : Int) : Bool :=
  (second + 1) % 86400 = 0 ∧ (Date.ofDays ((second + 1) / 86400)).day = 1

/-- The instant of a timestamp, its nanoseconds cut off toward 1970. -/
def readRfc3339? (text : List Char) : Option Instant := do
  let (year, rest) ← readFixed? 4 text
  let rest ← expect? '-' rest
  let (month, rest) ← readFixed? 2 rest
  let rest ← expect? '-' rest
  let (day, rest) ← readFixed? 2 rest
  let separator ← rest.head?
  let (hour, rest) ← readFixed? 2 (rest.drop 1)
  let rest ← expect? ':' rest
  let (minute, rest) ← readFixed? 2 rest
  let rest ← expect? ':' rest
  let (second, rest) ← readFixed? 2 rest
  let (nanosecond, rest) ← readFraction? rest
  let offset ← readOffset? rest
  let date : Date := ⟨year, month, day⟩
  guard (separator.toNat < 128 && date.isReal && hour ≤ 23 && minute ≤ 59 && second ≤ 60)
  let isLeap := second = 60
  let ofDay : Int := (3600 * hour + 60 * minute + min second 59 : Nat)
  let seconds := 86400 * date.toDays + ofDay - 60 * offset
  guard (!isLeap || endsMonth seconds)
  let nanoseconds := seconds * 1000000000 + ((if isLeap then 999999999 else nanosecond : Nat) : Int)
  ofMilliseconds? (nanoseconds.tdiv 1000000)

end DocumentCommand.Instant
