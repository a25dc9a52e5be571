import DocumentCommand.Binary64.Basic

/-!
# The fewest digits that read back

The reals that round to a finite double form an interval around it, its ends included exactly when
the significand is even.  Grids of 1, 2, … 17 decimal digits are tried in turn; on each only the
two neighbours of the value can be nearest, and the first grid with a neighbour in the interval
gives the digits.  All comparisons are between natural numbers, so nothing is rounded on the way.
-/

namespace DocumentCommand.Binary64

/-- The side that a value takes when it lies midway between two candidates. -/
inductive Tie where
  /-- The larger one. -/
  | up
  /-- The one whose last digit is even. -/
  | even
deriving DecidableEq, Repr

/-- A positive decimal `digits * 10 ^ exponent`. -/
structure Decimal where
  digits : Nat
  exponent : Int
deriving DecidableEq, Repr

/-- The place of the leading decimal digit of a positive fraction: the greatest `e` such that
`10 ^ e` is at most the fraction. -/
def leadingDecimalPlace (numerator denominator : Nat) : Int :=
  let reaches (e : Int) : Bool :=
    if e < 0 then denominator ≤ numerator * Nat.pow 10 (-e).toNat
    else denominator * Nat.pow 10 e.toNat ≤ numerator
  -- 1233 / 4096 is the logarithm of 2 up to an error that one step in either direction mends.
  let guess := (leadingPlace numerator denominator * 1233).fdiv 4096
  if reaches (guess + 1) then guess + 1 else if reaches guess then guess else guess - 1

/-- The interval that rounds to a double, in quarters of its quantum: the lower end, the value and
the upper end, and whether the ends belong to it. -/
structure Interval where
  low : Nat
  middle : Nat
  high : Nat
  closed : Bool

/-- The interval of a finite double that is not zero.  Below a power of two the neighbour is only
half as far away. -/
def interval (x : Binary64) : Interval :=
  let m := x.significand
  let below := if m = unitWeight ∧ -1074 < x.exponent then 1 else 2
  ⟨4 * m - below, 4 * m, 4 * m + 2, m % 2 = 0⟩

/-- Does the fraction lie in the interval, both taken over the same denominator? -/
def Interval.contains (i : Interval) (unit : Nat) (n : Nat) : Bool :=
  if i.closed then i.low * unit ≤ n ∧ n ≤ i.high * unit
  else i.low * unit < n ∧ n < i.high * unit

/-- The nearer of the value's two neighbours on the grid of multiples of `10 ^ exponent`, where it
lies in the interval. -/
def nearestOnGrid? (tie : Tie) (x : Binary64) (exponent : Int) : Option Decimal :=
  let i := x.interval
  let quarter := x.exponent - 2
  -- A quarter quantum is `unit / scale` and a step of the grid `step / scale`.
  let unit := Nat.pow 2 quarter.toNat * Nat.pow 10 (-exponent).toNat
  let step := Nat.pow 10 exponent.toNat * Nat.pow 2 (-quarter).toNat
  let value := i.middle * unit
  let lower := value / step
  let gap := value % step
  let lowerFirst := 2 * gap < step || (2 * gap == step && tie == .even && lower % 2 == 0)
  let candidates := if lowerFirst then [lower, lower + 1] else [lower + 1, lower]
  (candidates.find? fun d => 0 < d && i.contains unit (d * step)).map fun d => ⟨d, exponent⟩

/-- Trailing zeros of the digits moved into the exponent. -/
def Decimal.trimmed (d : Decimal) : Decimal :=
  if h : d.digits ≠ 0 ∧ d.digits % 10 = 0 then
    Decimal.trimmed ⟨d.digits / 10, d.exponent + 1⟩
  else d
termination_by d.digits
decreasing_by omega

/-- The shortest decimal that reads back as the magnitude of a finite double that is not zero; of
several equally short ones the nearest. -/
def shortest (tie : Tie) (x : Binary64) : Decimal :=
  let (numerator, denominator) := x.magnitudeRatio
  let place := leadingDecimalPlace numerator denominator
  let found := (List.range 17).findSome? fun (n : Nat) =>
    nearestOnGrid? tie x (place - n)
  -- The grid of seventeen digits is finer than the interval of any double.
  (found.getD ⟨x.significand, 0⟩).trimmed

end DocumentCommand.Binary64
