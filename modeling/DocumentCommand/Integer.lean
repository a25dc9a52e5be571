/-!
# Whole numbers of fixed width

The stored integers have 32 or 64 bits, the numerals that write them any number of digits.  A number
that does not fit its width is refused here and never wraps around, so what comes out has the value
of what went in (`int32?_eq_some_iff`).
-/

namespace DocumentCommand.Integer

/-- The signed number of 32 bits, none where it does not fit. -/
def int32? (n : Int) : Option Int32 :=
  if Int32.minValue.toInt ≤ n ∧ n ≤ Int32.maxValue.toInt then some (Int32.ofInt n) else none

/-- The signed number of 64 bits, none where it does not fit. -/
def int64? (n : Int) : Option Int64 :=
  if Int64.minValue.toInt ≤ n ∧ n ≤ Int64.maxValue.toInt then some (Int64.ofInt n) else none

/-- The unsigned number of 32 bits, none where it does not fit. -/
def uint32? (n : Int) : Option UInt32 :=
  if 0 ≤ n ∧ n < UInt32.size then some (UInt32.ofNat n.toNat) else none

/-- The unsigned number of 64 bits, none where it does not fit. -/
def uint64? (n : Int) : Option UInt64 :=
  if 0 ≤ n ∧ n < UInt64.size then some (UInt64.ofNat n.toNat) else none

/-- Does the number fit a signed word of 128 bits? -/
def isInt128 (n : Int) : Bool :=
  -(Nat.pow 2 127 : Nat) ≤ n && n < (Nat.pow 2 127 : Nat)

/-- Does the number fit an unsigned word of 128 bits? -/
def isUInt128 (n : Int) : Bool :=
  0 ≤ n && n < (Nat.pow 2 128 : Nat)

@[simp] theorem int32?_toInt (word : Int32) : int32? word.toInt = some word := by
  have least := word.minValue_le_toInt
  have greatest := word.toInt_le
  simp_all [int32?]

@[simp] theorem int64?_toInt (word : Int64) : int64? word.toInt = some word := by
  have least := word.minValue_le_toInt
  have greatest := word.toInt_le
  simp_all [int64?]

theorem int32?_eq_some_iff {n : Int} {word : Int32} : int32? n = some word ↔ word.toInt = n := by
  constructor
  · intro found
    simp only [int32?, Option.ite_none_right_eq_some, Option.some.injEq] at found
    obtain ⟨⟨least, greatest⟩, rfl⟩ := found
    have bound : Int32.maxValue.toInt = 2147483647 := by decide
    exact Int32.toInt_ofInt_of_le (by simpa using least) (by omega)
  · rintro rfl
    exact int32?_toInt word

theorem int64?_eq_some_iff {n : Int} {word : Int64} : int64? n = some word ↔ word.toInt = n := by
  constructor
  · intro found
    simp only [int64?, Option.ite_none_right_eq_some, Option.some.injEq] at found
    obtain ⟨⟨least, greatest⟩, rfl⟩ := found
    have bound : Int64.maxValue.toInt = 9223372036854775807 := by decide
    exact Int64.toInt_ofInt_of_le (by simpa using least) (by omega)
  · rintro rfl
    exact int64?_toInt word

theorem uint64?_eq_some_iff {n : Nat} {word : UInt64} : uint64? n = some word ↔ word.toNat = n := by
  constructor
  · intro found
    simp only [uint64?, Option.ite_none_right_eq_some, Option.some.injEq] at found
    obtain ⟨⟨-, small⟩, rfl⟩ := found
    exact UInt64.toNat_ofNat_of_lt' (Int.ofNat_lt.1 small)
  · rintro rfl
    have small : (0 : Int) ≤ word.toNat ∧ (word.toNat : Int) < UInt64.size :=
      ⟨Int.natCast_nonneg _, Int.ofNat_lt.2 word.toNat_lt_size⟩
    rw [uint64?, if_pos small, Int.toNat_natCast, UInt64.ofNat_toNat]

end DocumentCommand.Integer
