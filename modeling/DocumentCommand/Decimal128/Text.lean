import DocumentCommand.Decimal128.Basic
import DocumentCommand.Integer
import DocumentCommand.Text.Digits

/-!
# Decimal128 as text

Writing uses plain notation while the exponent is not positive and the leading digit stands at most
six places behind the point, and an exponent otherwise, so that coefficient and exponent can be read
off the text.  Reading never rounds: a text whose value has no exact representation is refused.

What stands before an exponent counts as the coefficient however short it is: without any digit it
is zero, and behind its zeros it may carry a plus sign.  Exponents have to fit 128 bits, those of
zero as well.
-/

namespace DocumentCommand.Decimal128

/-- Digits and exponent, positional where the rule of the module allows it. -/
def finiteText (coefficient : Nat) (exponent : Int) : List Char :=
  let digits := Text.Digits.ofNat coefficient
  let adjusted := exponent + digits.length - 1
  if exponent ≤ 0 ∧ -6 ≤ adjusted then
    let places := (-exponent).toNat
    if places = 0 then digits
    else if places < digits.length then
      digits.take (digits.length - places) ++ '.' :: digits.drop (digits.length - places)
    else '0' :: '.' :: (List.replicate (places - digits.length) '0' ++ digits)
  else
    let mantissa := match digits with
      | first :: second :: rest => first :: '.' :: second :: rest
      | short => short
    mantissa ++ 'E' :: ((if 0 < adjusted then ['+'] else []) ++ Text.Digits.ofInt adjusted)

/-- The text of a number.  A NaN shows neither sign nor kind. -/
def text (d : Decimal128) : List Char :=
  let sign := if d.isNegative then ['-'] else []
  match d.magnitude with
  | .nan _ => "NaN".toList
  | .infinity => sign ++ "Infinity".toList
  | .finite coefficient exponent => sign ++ finiteText coefficient exponent

/-- Cuts characters off the end, none where one of them is not the digit zero. -/
def cut? (keep : Nat) (digits : List Char) : Option (List Char) :=
  if (digits.drop keep).all (· = '0') then some (digits.take keep) else none

/-- Brings digits to at most 34, each one cut raising the exponent. -/
def fitPrecision? (digits : List Char) (exponent : Int) : Option (List Char × Int) :=
  if digits.length ≤ precision then some (digits, exponent)
  else (cut? precision digits).map (·, exponent + (digits.length - precision : Nat))

/-- Brings the exponent into its range: zero takes the nearest exponent; other digits lose trailing
zeros where the exponent is too small and gain some where it is too large. -/
def fitExponent? (digits : List Char) (exponent : Int) : Option (List Char × Int) :=
  if exponent < minExponent then
    if digits = ['0'] then some (digits, minExponent)
    else
      let excess := (minExponent - exponent).toNat
      if digits.length < excess then none
      else (cut? (digits.length - excess) digits).map (·, minExponent)
  else if maxExponent < exponent then
    if digits = ['0'] then some (digits, maxExponent)
    else
      let excess := (exponent - maxExponent).toNat
      if precision < digits.length + excess then none
      else some (digits ++ List.replicate excess '0', maxExponent)
  else some (digits, exponent)

/-- What stands before the first occurrence of a character and what after it, none where there is
no occurrence. -/
def splitAt? (c : Char) (text : List Char) : Option (List Char × List Char) :=
  if text.contains c then some (text.takeWhile (· ≠ c), (text.dropWhile (· ≠ c)).drop 1) else none

/-- An exponent as it is written. -/
def readExponent? (text : List Char) : Option Int :=
  (Text.Digits.readSigned? text).filter Integer.isInt128

/-- What stands before the exponent, and the exponent, zero where none is written. -/
def cutExponent? (text : List Char) : Option (List Char × Int) :=
  match splitAt? 'e' text with
  | none => some (text, 0)
  | some (before, after) => (readExponent? after).map (before, ·)

/-- What is written without its point, and the number of places behind the point. -/
def cutPoint (decimal : List Char) : List Char × Nat :=
  match splitAt? '.' decimal with
  | none => (decimal, 0)
  | some (before, after) => (before ++ after, after.length)

/-- A numeral without leading zeros; where nothing is left it is zero. -/
def stripZeros (numeral : List Char) : List Char :=
  let stripped := numeral.dropWhile (· = '0')
  if stripped = [] then ['0'] else stripped

/-- The magnitude of a finite number, from lower-case text. -/
def readFinite? (text : List Char) : Option Magnitude := do
  let (decimal, written) ← cutExponent? text
  let (joined, places) := cutPoint decimal
  let exponent := written - (places : Int)
  guard (Integer.isInt128 exponent)
  let (digits, exponent) ← fitPrecision? (stripZeros joined) exponent
  let (digits, exponent) ← fitExponent? digits exponent
  let coefficient ← Text.Digits.readUnsigned? digits
  return .finite coefficient exponent

/-- The magnitude that a text without sign writes. -/
def readMagnitude? (text : List Char) : Option Magnitude :=
  let word := text.map Char.toLower
  if word = "nan".toList then some (.nan false)
  else if word = "snan".toList then some (.nan true)
  else if word = "inf".toList ∨ word = "infinity".toList then some .infinity
  else readFinite? word

/-- The number that a text writes, none where it writes none or none exactly. -/
def read? : List Char → Option Decimal128
  | '-' :: rest => (readMagnitude? rest).map (ofParts true)
  | '+' :: rest => (readMagnitude? rest).map (ofParts false)
  | text => (readMagnitude? text).map (ofParts false)

/-- The number as it comes back from its text: the sign and kind of a NaN are lost, and a
coefficient that counts as zero is zero. -/
def throughText (d : Decimal128) : Decimal128 :=
  (read? d.text).getD d

end DocumentCommand.Decimal128
