import DocumentCommand.Binary64.Text
import DocumentCommand.Reading.Problem

/-!
# JSON numbers

A `Numeral` is a number as it is written; `Numeral.value?` is what it means.  A whole number that
fits 64 bits is an integer.  Everything else is a double: as many leading digits as fit 64 bits
are taken, and the result is scaled by powers of ten, each step rounded, which is not always the
double nearest to the numeral.
-/

namespace DocumentCommand.Json

/-- A number as it is written. -/
structure Numeral where
  negative : Bool
  whole : List Char
  /-- The digits behind the point, none where there is no point. -/
  fraction : List Char
  /-- Whether the exponent is negative, and its digits. -/
  exponent : Option (Bool × List Char)
deriving DecidableEq, Repr

/-- What a numeral means. -/
inductive Number where
  /-- From the least signed to the greatest unsigned number of 64 bits. -/
  | integer (n : Int)
  | real (x : Binary64)
deriving DecidableEq, Repr

namespace Numeral

/-- The fault where a text had to go on: either it is at its end or something else stands there. -/
def faultAt (rest : List Char) : Fault :=
  if rest = [] then .eof else .malformed

/-- The exponent at the head of a text, if there is one, and the rest. -/
def scanExponent (text : List Char) : Except Fault (Option (Bool × List Char) × List Char) :=
  let digitsOf (negative : Bool) (rest : List Char) :=
    let digits := rest.takeWhile Char.isDigit
    if digits = [] then .error (faultAt rest)
    else .ok (some (negative, digits), rest.dropWhile Char.isDigit)
  match text with
  | 'e' :: '-' :: rest | 'E' :: '-' :: rest => digitsOf true rest
  | 'e' :: '+' :: rest | 'E' :: '+' :: rest => digitsOf false rest
  | 'e' :: rest | 'E' :: rest => digitsOf false rest
  | rest => .ok (none, rest)

/-- The fraction at the head of a text, if there is one, and the rest. -/
def scanFraction : List Char → Except Fault (List Char × List Char)
  | '.' :: rest =>
    let digits := rest.takeWhile Char.isDigit
    if digits = [] then .error (faultAt rest) else .ok (digits, rest.dropWhile Char.isDigit)
  | rest => .ok ([], rest)

/-- The digits before the point, which start with zero only when they are zero, and the rest. -/
def scanWhole (text : List Char) : Except Fault (List Char × List Char) :=
  let digits := text.takeWhile Char.isDigit
  if digits = [] then .error (faultAt text)
  else if digits.head? = some '0' ∧ digits ≠ ['0'] then .error .malformed
  else .ok (digits, text.dropWhile Char.isDigit)

/-- Whether a minus sign stands at the head of a text, and what follows it. -/
def scanSign : List Char → Bool × List Char
  | '-' :: rest => (true, rest)
  | rest => (false, rest)

/-- The numeral at the head of a text that starts with a digit or a minus sign, and the rest. -/
def scan (text : List Char) : Except Fault (Numeral × List Char) := do
  let (negative, unsigned) := scanSign text
  let (whole, rest) ← scanWhole unsigned
  let (fraction, rest) ← scanFraction rest
  let (exponent, rest) ← scanExponent rest
  return (⟨negative, whole, fraction, exponent⟩, rest)

/-- Appends digits to a number as long as it fits 64 bits; the number, and how many were appended.
-/
def absorb (n : Nat) : List Char → Nat × Nat
  | [] => (n, 0)
  | c :: rest =>
    let next := 10 * n + (c.toNat - '0'.toNat)
    if next < UInt64.size then
      let (total, count) := absorb next rest
      (total, count + 1)
    else (n, 0)

/-- A double scaled by a power of ten in steps within the range of doubles, none where the result is
too large. -/
def scaled (x : Binary64) (exponent : Int) : Option Binary64 :=
  if exponent < -308 then
    if x.isZero then some x
    else scaled (x.dividedBy (Binary64.ofDecimal false 1 308)) (exponent + 308)
  else if exponent < 0 then some (x.dividedBy (Binary64.ofDecimal false 1 (-exponent)))
  else if exponent ≤ 308 then
    let product := x.times (Binary64.ofDecimal false 1 exponent)
    if product.isInfinite then none else some product
  else if x.isZero then some x else none
termination_by (-exponent).toNat
decreasing_by omega

/-- The double that a numeral means, none where it is too large. -/
def real? (numeral : Numeral) : Option Binary64 :=
  let (whole, used) := absorb 0 numeral.whole
  let (significand, places) := absorb whole numeral.fraction
  let shift : Int := (numeral.whole.length - used : Nat) - (places : Int)
  let magnitude := match numeral.exponent with
    | none => scaled (Binary64.ofNat significand) shift
    | some (negative, digits) =>
      let n := Text.Digits.value digits
      if n ≤ Int32.maxValue.toInt then
        scaled (Binary64.ofNat significand) (if negative then shift - n else shift + n)
      else if significand = 0 ∨ negative = true then some (Binary64.zero false)
      else none
  magnitude.map (Binary64.withSign numeral.negative)

/-- What a numeral means, none where it is too large for a double. -/
def value? (numeral : Numeral) : Option Number :=
  let n := Text.Digits.value numeral.whole
  if numeral.fraction = [] ∧ numeral.exponent = none ∧
      (if numeral.negative then 0 < n ∧ Int64.minValue.toInt ≤ -n else n < UInt64.size) then
    some (.integer (if numeral.negative then -n else n))
  else numeral.real?.map .real

end Numeral

end DocumentCommand.Json
