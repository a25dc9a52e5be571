/-!
# Decimal numerals

Whole numbers as text.  Writing gives the numeral without leading zeros; reading takes an optional
sign and at least one digit, and nothing else: no blanks, no separators, no exponent.  Leading zeros
are read, so reading is a left inverse of writing and not its inverse.
-/

namespace DocumentCommand.Text.Digits

/-- The numeral of a natural number, without leading zeros. -/
def ofNat (n : Nat) : List Char :=
  Nat.toDigits 10 n

/-- The numeral of an integer: a minus sign for the negative ones, no plus sign. -/
def ofInt : Int → List Char
  | .ofNat n => ofNat n
  | .negSucc n => '-' :: ofNat (n + 1)

/-- The number that a run of digits writes. -/
def value (digits : List Char) : Nat :=
  Nat.ofDigitChars 10 digits 0

/-- The numeral with zeros in front up to the given width. -/
def padded (width n : Nat) : List Char :=
  List.replicate (width - (ofNat n).length) '0' ++ ofNat n

/-- Reads at least one digit and nothing but digits. -/
def readNat? (text : List Char) : Option Nat :=
  if text ≠ [] ∧ text.all Char.isDigit = true then some (value text) else none

/-- Reads a natural number that may carry a plus sign. -/
def readUnsigned? : List Char → Option Nat
  | '+' :: digits => readNat? digits
  | digits => readNat? digits

/-- Reads an integer that may carry either sign. -/
def readSigned? : List Char → Option Int
  | '-' :: digits => (readNat? digits).map fun n => -(n : Int)
  | text => (readUnsigned? text).map Int.ofNat

/-- Reads a number of exactly the given count of digits, and what follows it. -/
def readFixed? (count : Nat) (text : List Char) : Option (Nat × List Char) :=
  (readNat? (text.take count)).bind fun n =>
    if count ≤ text.length then some (n, text.drop count) else none

/-- What follows the given character, which stands between such numbers. -/
def expect? (c : Char) : List Char → Option (List Char)
  | [] => none
  | d :: rest => if d = c then some rest else none

theorem drop_eq_of_readFixed? {count n : Nat} {text rest : List Char}
    (read : readFixed? count text = some (n, rest)) : text.drop count = rest := by
  obtain ⟨m, -, read⟩ := Option.bind_eq_some_iff.1 read
  split at read
  · exact (Prod.mk.inj (Option.some.inj read)).2
  · cases read

theorem expect?_eq_none {c : Char} {text : List Char} (absent : c ∉ text) :
    expect? c text = none := by
  cases text with
  | nil => rfl
  | cons d rest =>
      have different : d ≠ c := fun same => absent (same ▸ List.mem_cons_self)
      exact if_neg different

theorem all_isDigit_ofNat (n : Nat) : (ofNat n).all Char.isDigit = true := by
  rw [List.all_eq_true]
  intro c member
  exact Nat.isDigit_of_mem_toDigits (by decide) (by decide) member

@[simp] theorem ofNat_ne_nil (n : Nat) : ofNat n ≠ [] :=
  Nat.toDigits_ne_nil

@[simp] theorem value_ofNat (n : Nat) : value (ofNat n) = n :=
  Nat.ofDigitChars_ten_toDigits

@[simp] theorem readNat?_ofNat (n : Nat) : readNat? (ofNat n) = some n := by
  simp [readNat?, all_isDigit_ofNat]

end DocumentCommand.Text.Digits
