/-!
# Hexadecimal text of bytes

Two digits a byte, the high half first.  Writing uses lower-case digits; reading takes either case
and an even number of digits.
-/

namespace DocumentCommand.Text.Hex

/-- The lower-case digit of a number below sixteen. -/
def digit (n : Nat) : Char :=
  Nat.digitChar (n % 16)

/-- The value of a digit of either case. -/
def value? (c : Char) : Option Nat :=
  if '0' ≤ c ∧ c ≤ '9' then some (c.toNat - '0'.toNat)
  else if 'a' ≤ c ∧ c ≤ 'f' then some (c.toNat - 'a'.toNat + 10)
  else if 'A' ≤ c ∧ c ≤ 'F' then some (c.toNat - 'A'.toNat + 10)
  else none

/-- The two digits of a byte. -/
def ofByte (b : UInt8) : List Char :=
  [digit (b.toNat / 16), digit b.toNat]

/-- The digits of a sequence of bytes. -/
def encode (bytes : List UInt8) : List Char :=
  bytes.flatMap ofByte

/-- The bytes that the digits write, none where a character is no digit or a digit is left over. -/
def decode : List Char → Option (List UInt8)
  | [] => some []
  | [_] => none
  | high :: low :: rest => do
    let h ← value? high
    let l ← value? low
    let bytes ← decode rest
    return UInt8.ofNat (16 * h + l) :: bytes

/-- The number that the digits write, none where a character is no digit. -/
def natValue? (digits : List Char) : Option Nat :=
  digits.foldlM (fun n c => (value? c).map (16 * n + ·)) 0

/-- The digits of a number, lower case and without leading zeros. -/
def ofNat (n : Nat) : List Char :=
  Nat.toDigits 16 n

end DocumentCommand.Text.Hex
