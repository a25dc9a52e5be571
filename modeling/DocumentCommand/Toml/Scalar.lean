import DocumentCommand.Instant.Basic
import DocumentCommand.Text.Hex
import DocumentCommand.Toml.Table

/-!
# TOML numbers, truth values and dates

The values that are written without quotes or brackets.  All of them are runs of a few characters;
what a run means, if anything, is decided here.  Dates and times count as tables for their reader,
so all that matters about them is that the calendar holds them.
-/

namespace DocumentCommand.Toml

open Reading (Found)
open Text.Digits (readFixed? expect?)

namespace Scalar

/-- Digits with single underscores between them, the underscores left out. -/
def digits? (isDigit : Char → Bool) (text : List Char) : Option (List Char) :=
  let wellSpaced := !(text.head? == some '_') && !(text.getLast? == some '_') &&
    !(text.zip (text.drop 1)).contains ('_', '_')
  let digits := text.filter (· ≠ '_')
  if digits ≠ [] ∧ wellSpaced = true ∧ digits.all isDigit = true then some digits else none

/-- Decimal digits that start with zero only where they are zero. -/
def wholeDigits? (text : List Char) : Option (List Char) := do
  let digits ← digits? Char.isDigit text
  guard (digits.head? ≠ some '0' || digits.length == 1)
  return digits

/-- The value of digits to a base. -/
def valueIn (base : Nat) (digits : List Char) : Nat :=
  digits.foldl (fun n c => base * n + (Text.Hex.value? c).getD 0) 0

/-- An integer of 64 bits, with or without sign, else one of 128. -/
def ofInteger (n : Int) : Scalar :=
  if Int64.minValue.toInt ≤ n ∧ n < UInt64.size then .found (.integer n)
  else if Integer.isInt128 n || Integer.isUInt128 n then .found (.wide n)
  else .unrepresentable

/-- Is it a digit to a base of at most sixteen? -/
def isDigitIn (base : Nat) (c : Char) : Bool :=
  match Text.Hex.value? c with
  | some n => n < base
  | none => false

/-- Splits a sign off. -/
def sign : List Char → Bool × List Char
  | '-' :: rest => (true, rest)
  | '+' :: rest => (false, rest)
  | rest => (false, rest)

/-- An integer: decimal with an optional sign, or to another base behind its mark. -/
def integer? (text : List Char) : Option Scalar :=
  let based (base : Nat) (rest : List Char) : Option Scalar :=
    (digits? (isDigitIn base) rest).map fun digits => ofInteger (valueIn base digits)
  match text with
  | '0' :: 'x' :: rest => based 16 rest
  | '0' :: 'o' :: rest => based 8 rest
  | '0' :: 'b' :: rest => based 2 rest
  | text =>
    let (negative, unsigned) := sign text
    (wholeDigits? unsigned).map fun digits =>
      let n : Int := Text.Digits.value digits
      ofInteger (if negative then -n else n)

/-- An exponent behind its mark. -/
def exponent? (text : List Char) : Option Int := do
  let (negative, unsigned) := sign text
  let n : Int := Text.Digits.value (← digits? Char.isDigit unsigned)
  return if negative then -n else n

/-- The double of digits, a fraction and an exponent. -/
def ofParts (negative : Bool) (whole fraction : List Char) (exponent : Int) : Scalar :=
  let x := Binary64.ofDigits negative (whole ++ fraction) (exponent - fraction.length)
  if x.isInfinite then .unrepresentable else .found (.real x)

/-- A number with a fraction or an exponent, or a word for an infinity or a NaN. -/
def real? (text : List Char) : Option Scalar := do
  let (negative, unsigned) := sign text
  if unsigned = "inf".toList then return .found (.real (Binary64.infinity negative))
  if unsigned = "nan".toList then return .found (.real (Binary64.nan.withSign negative))
  let isMark (c : Char) : Bool := c == 'e' || c == 'E'
  let mantissa := unsigned.takeWhile fun c => !isMark c
  let marked := unsigned.dropWhile fun c => !isMark c
  guard (mantissa.contains '.' || marked ≠ [])
  let exponent ← if marked = [] then some 0 else exponent? (marked.drop 1)
  let whole ← wholeDigits? (mantissa.takeWhile (· ≠ '.'))
  let pointed := mantissa.dropWhile (· ≠ '.')
  let fraction ← if pointed = [] then some [] else digits? Char.isDigit (pointed.drop 1)
  return ofParts negative whole fraction exponent

/-- What follows a date of the calendar. -/
def afterDate? (text : List Char) : Option (List Char) := do
  let (year, rest) ← readFixed? 4 text
  let rest ← expect? '-' rest
  let (month, rest) ← readFixed? 2 rest
  let rest ← expect? '-' rest
  let (day, rest) ← readFixed? 2 rest
  guard (Date.isReal ⟨year, month, day⟩)
  return rest

/-- What follows seconds and their fraction, both of which may be missing. -/
def afterSeconds? : List Char → Option (List Char)
  | ':' :: rest => do
    let (second, rest) ← readFixed? 2 rest
    guard (second ≤ 60)
    match rest with
    | '.' :: rest => do
      guard (rest.takeWhile Char.isDigit ≠ [])
      return rest.dropWhile Char.isDigit
    | rest => return rest
  | rest => some rest

/-- What follows hour and minute. -/
def afterMinutes? (text : List Char) : Option (List Char) := do
  let (hour, rest) ← readFixed? 2 text
  let rest ← expect? ':' rest
  let (minute, rest) ← readFixed? 2 rest
  guard (hour ≤ 23 && minute ≤ 59)
  return rest

/-- What follows a time of day. -/
def afterTime? (text : List Char) : Option (List Char) := do
  afterSeconds? (← afterMinutes? text)

/-- Is it an offset, or nothing? -/
def isOffset : List Char → Bool
  | [] | ['Z'] | ['z'] => true
  | c :: rest => (c == '+' || c == '-') && afterMinutes? rest == some []

/-- Is it a date, a time of day, or both, the latter with or without offset? -/
def isDateTime (text : List Char) : Bool :=
  match afterDate? text with
  | some [] => true
  | some (c :: rest) =>
    (c == 'T' || c == 't' || c == ' ') &&
      match afterTime? rest with
      | some rest => isOffset rest
      | none => false
  | none => afterTime? text == some []

/-- What a run of characters means, none where it means nothing. -/
def ofRun? (text : List Char) : Option Scalar :=
  if text = "true".toList then some (.found (.bool true))
  else if text = "false".toList then some (.found (.bool false))
  else if isDateTime text then some (.found .map)
  else (integer? text).orElse fun _ => real? text

/-- May the character stand in a run? -/
def isRunChar (c : Char) : Bool :=
  c.isAlphanum || c == '_' || c == '+' || c == '-' || c == ':' || c == '.'

/-- The run at the head of a text, and what follows it.  A blank may stand between date and time. -/
def scanRun (text : List Char) : List Char × List Char :=
  let run := text.takeWhile isRunChar
  let rest := text.dropWhile isRunChar
  match rest with
  | ' ' :: d :: more =>
    if afterDate? run = some [] ∧ d.isDigit = true then
      (run ++ ' ' :: (d :: more).takeWhile isRunChar, (d :: more).dropWhile isRunChar)
    else (run, rest)
  | rest => (run, rest)

end Scalar

end DocumentCommand.Toml
