import DocumentCommand.Binary64.Shortest
import DocumentCommand.Text.Digits

/-!
# Doubles as text

A `Layout` holds the decisions of one written form: where positional notation ends, whether a whole
number keeps its point, how an exponent is marked, and which of two equally near decimals is taken.
The digits themselves are always the fewest that read back.

Reading takes an optional sign and then either digits, which may hold one point and end in an
exponent, or one of the words for an infinity or a NaN in any case; the result is the nearest
double.
-/

namespace DocumentCommand.Binary64

/-- The decisions of one written form of doubles. -/
structure Layout where
  /-- Is a number written without exponent when its leading digit stands at this place? -/
  positional : Int → Bool
  /-- Does a whole number written without exponent end in `.0`? -/
  keepsPoint : Bool
  /-- Which of two equally near decimals is taken? -/
  tie : Tie

/-- Never an exponent and never a needless point. -/
def Layout.plain : Layout :=
  ⟨fun _ => true, false, .up⟩

/-- Never an exponent, and always a point. -/
def Layout.pointed : Layout :=
  ⟨fun _ => true, true, .up⟩

/-- Positional from the fifth place after the point to the sixteenth before it, always with a point
there, and with an exponent elsewhere. -/
def Layout.scientific : Layout :=
  ⟨fun place => -5 ≤ place && place < 16, true, .even⟩

/-- Digits with the point after the given number of them, zeros filled in on either side. -/
def pointAt (keepsPoint : Bool) (digits : List Char) (before : Int) : List Char :=
  let zeros (n : Int) : List Char := List.replicate n.toNat '0'
  if before ≤ 0 then '0' :: '.' :: zeros (-before) ++ digits
  else if digits.length ≤ before then
    digits ++ zeros (before - digits.length) ++ (if keepsPoint then ['.', '0'] else [])
  else digits.take before.toNat ++ '.' :: digits.drop before.toNat

/-- Digits with the point after the first, and an exponent that always shows its sign. -/
def withExponent (digits : List Char) (place : Int) : List Char :=
  let mantissa := match digits with
    | first :: second :: rest => first :: '.' :: second :: rest
    | short => short
  mantissa ++ 'e' :: (if place < 0 then '-' else '+') :: Text.Digits.ofNat place.natAbs

/-- The magnitude of a finite double in the given layout. -/
def magnitudeText (layout : Layout) (x : Binary64) : List Char :=
  if x.isZero then '0' :: (if layout.keepsPoint then ['.', '0'] else [])
  else
    let d := x.shortest layout.tie
    let digits := Text.Digits.ofNat d.digits
    let place := d.exponent + digits.length - 1
    if layout.positional place then pointAt layout.keepsPoint digits (place + 1)
    else withExponent digits place

/-- The text of a double in the given layout. -/
def text (layout : Layout) (x : Binary64) : List Char :=
  if x.isNaN then "NaN".toList
  else
    (if x.isNegative then ['-'] else []) ++
      (if x.isInfinite then "inf".toList else x.magnitudeText layout)

/-- The double nearest to `digits * 10 ^ exponent`; exponents far outside the format are settled
without computing the power. -/
def ofDigits (negative : Bool) (digits : List Char) (exponent : Int) : Binary64 :=
  let significand := Text.Digits.value digits
  let size := exponent + digits.length
  if significand = 0 ∨ size < -400 then zero negative
  else if 400 + digits.length < size then infinity negative
  else ofDecimal negative significand exponent

/-- An exponent: nothing, or its mark, an optional sign and at least one digit. -/
def readExponent? : List Char → Option Int
  | [] => some 0
  | 'e' :: rest | 'E' :: rest => Text.Digits.readSigned? rest
  | _ => none

/-- The double written by a text without sign. -/
def readMagnitude? (negative : Bool) (text : List Char) : Option Binary64 :=
  let word := text.map Char.toLower
  if word = "inf".toList ∨ word = "infinity".toList then some (infinity negative)
  else if word = "nan".toList then some (nan.withSign negative)
  else
    let whole := text.takeWhile Char.isDigit
    let (fraction, rest) := match text.dropWhile Char.isDigit with
      | '.' :: rest => (rest.takeWhile Char.isDigit, rest.dropWhile Char.isDigit)
      | rest => ([], rest)
    if whole = [] ∧ fraction = [] then none
    else (readExponent? rest).map fun exponent =>
      ofDigits negative (whole ++ fraction) (exponent - fraction.length)

/-- The double that a text writes, none where it writes no number. -/
def read? : List Char → Option Binary64
  | '-' :: rest => readMagnitude? true rest
  | '+' :: rest => readMagnitude? false rest
  | text => readMagnitude? false text

end DocumentCommand.Binary64
