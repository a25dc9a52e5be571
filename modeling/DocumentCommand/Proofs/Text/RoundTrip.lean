import DocumentCommand.Text.Base64
import DocumentCommand.Text.Digits
import DocumentCommand.Text.Hex

/-!
# Numerals and bytes read back

Whole numbers, hexadecimal digits and Base64 are written in one way and read back from it.  The
readers take more than what is written: leading zeros, a plus sign, digits of either case.
-/

namespace DocumentCommand.Text

section Runs

variable {p : Char → Bool} {run rest : List Char}

/-- The run at the head of a text ends where it does not go on. -/
theorem takeWhile_append (all : ∀ c ∈ run, p c = true) (ends : ∀ c ∈ rest.head?, p c = false) :
    (run ++ rest).takeWhile p = run := by
  rw [List.takeWhile_append_of_pos all]
  cases rest with
  | nil => simp
  | cons c rest => simp [ends c rfl]

theorem dropWhile_append (all : ∀ c ∈ run, p c = true) (ends : ∀ c ∈ rest.head?, p c = false) :
    (run ++ rest).dropWhile p = rest := by
  rw [List.dropWhile_append_of_pos all]
  cases rest with
  | nil => rfl
  | cons c rest => simp [ends c rfl]

end Runs

namespace Digits

theorem isDigit_of_mem_ofNat {n : Nat} {c : Char} (member : c ∈ ofNat n) : c.isDigit = true :=
  List.all_eq_true.1 (all_isDigit_ofNat n) c member

/-- A positive number does not start with zero. -/
theorem head?_ofNat_ne_zero {n : Nat} (positive : 0 < n) : (ofNat n).head? ≠ some '0' := by
  induction n using Nat.strongRecOn with
  | ind n ih =>
      rw [ofNat, Nat.toDigits_eq_if (by decide)]
      split
      · simp
        omega
      · have shorter := ih (n / 10) (by omega) (by omega)
        rw [ofNat] at shorter
        cases digits : Nat.toDigits 10 (n / 10) with
        | nil => exact absurd digits Nat.toDigits_ne_nil
        | cons c rest => simpa [digits] using shorter

/-- A numeral that starts with zero is zero. -/
theorem ofNat_eq_zero_of_head? {n : Nat} (zero : (ofNat n).head? = some '0') : ofNat n = ['0'] := by
  cases n with
  | zero => rfl
  | succ n => exact absurd zero (head?_ofNat_ne_zero (Nat.succ_pos n))

/-- Digits without a sign are read as the number that they write. -/
theorem readSigned?_of_head? {text : List Char} (digit : ∀ c ∈ text.head?, c.isDigit = true) :
    readSigned? text = (readNat? text).map Int.ofNat := by
  unfold readSigned? readUnsigned?
  split
  · exact absurd (digit '-' rfl) (by decide)
  · split
    · exact absurd (digit '+' rfl) (by decide)
    · rfl

@[simp] theorem readSigned?_ofInt (n : Int) : readSigned? (ofInt n) = some n := by
  cases n with
  | ofNat n =>
      have digit : ∀ c ∈ (ofNat n).head?, c.isDigit = true := by
        intro c first
        apply isDigit_of_mem_ofNat
        exact List.mem_of_mem_head? first
      simp [ofInt, readSigned?_of_head? digit]
  | negSucc n =>
      rw [ofInt, readSigned?, readNat?_ofNat]
      rfl

theorem takeWhile_ofNat_append (n : Nat) {rest : List Char}
    (ends : ∀ c ∈ rest.head?, c.isDigit = false) :
    (ofNat n ++ rest).takeWhile Char.isDigit = ofNat n :=
  takeWhile_append (fun _ => isDigit_of_mem_ofNat) ends

theorem dropWhile_ofNat_append (n : Nat) {rest : List Char}
    (ends : ∀ c ∈ rest.head?, c.isDigit = false) :
    (ofNat n ++ rest).dropWhile Char.isDigit = rest :=
  dropWhile_append (fun _ => isDigit_of_mem_ofNat) ends

end Digits

namespace Hex

theorem value?_digit (n : Nat) : value? (digit n) = some (n % 16) := by
  have finite : ∀ m < 16, value? (Nat.digitChar m) = some m := by decide
  exact finite (n % 16) (Nat.mod_lt n (by decide))

/-- The number of a byte in four digits. -/
theorem natValue?_byte {n : Nat} (small : n < 0x100) :
    natValue? ['0', '0', digit (n / 16), digit n] = some n := by
  have zero : value? '0' = some 0 := by decide
  have high : n / 16 % 16 = n / 16 := by omega
  simp only [natValue?, List.foldlM_cons, List.foldlM_nil, zero, value?_digit, Option.map_some,
    Option.bind_eq_bind, Option.bind_some, high, Option.pure_def]
  congr 1
  omega

theorem decode_ofByte_append (b : UInt8) (rest : List Char) :
    decode (ofByte b ++ rest) = (decode rest).map (b :: ·) := by
  have high : b.toNat / 16 % 16 = b.toNat / 16 := by
    have := b.toNat_lt
    omega
  have whole : UInt8.ofNat (16 * (b.toNat / 16) + b.toNat % 16) = b := by
    rw [Nat.div_add_mod, UInt8.ofNat_toNat]
  simp only [ofByte, List.cons_append, List.nil_append, decode, value?_digit, high,
    Option.bind_eq_bind, Option.bind_some, whole]
  cases decode rest <;> rfl

@[simp] theorem decode_ofByte (b : UInt8) : decode (ofByte b) = some [b] := by
  simpa [decode] using decode_ofByte_append b []

@[simp] theorem decode_encode (bytes : List UInt8) : decode (encode bytes) = some bytes := by
  induction bytes with
  | nil => rfl
  | cons b rest ih =>
      rw [encode, List.flatMap_cons, decode_ofByte_append]
      simpa [encode] using ih

end Hex

namespace Base64

theorem value?_digit {n : Nat} (small : n < 64) : value? (digit n) = some n := by
  have finite : ∀ m < 64, value? (digit m) = some m := by decide
  exact finite n small

theorem digit_ne_padding {n : Nat} (small : n < 64) : digit n ≠ '=' := by
  have finite : ∀ m < 64, digit m ≠ '=' := by decide
  exact finite n small

/-- Four characters without padding are three bytes. -/
theorem decode_cons_of_ne {a b c d : Char} (rest : List Char) (last : d ≠ '=') :
    decode (a :: b :: c :: d :: rest) = (do
      let n := 262144 * (← value? a) + 4096 * (← value? b) + 64 * (← value? c) + (← value? d)
      let bytes ← decode rest
      return UInt8.ofNat (n / 65536) :: UInt8.ofNat (n / 256 % 256) :: UInt8.ofNat (n % 256)
        :: bytes) := by
  rw [decode.eq_4]
  · rintro rfl
    simp_all
  · rintro rfl
    simp_all

@[simp] theorem decode_encode (bytes : List UInt8) : decode (encode bytes) = some bytes := by
  induction bytes using encode.induct with
  | case1 => rfl
  | case2 a =>
      have small := a.toNat_lt
      have unused : (64 * (a.toNat * 16 / 64) + a.toNat * 16 % 64) % 16 = 0 := by omega
      have first : (64 * (a.toNat * 16 / 64) + a.toNat * 16 % 64) / 16 = a.toNat := by omega
      simp only [encode, decode]
      rw [value?_digit (by omega), value?_digit (by omega)]
      simp [unused, first]
  | case3 a b =>
      have smallA := a.toNat_lt
      have smallB := b.toNat_lt
      have last : digit ((a.toNat * 256 + b.toNat) * 4 % 64) ≠ '=' := digit_ne_padding (by omega)
      rw [encode, decode.eq_3 _ _ _ last]
      rw [value?_digit (by omega), value?_digit (by omega), value?_digit (by omega)]
      generalize whole : (a.toNat * 256 + b.toNat) * 4 = n
      have joined : 4096 * (n / 4096) + 64 * (n / 64 % 64) + n % 64 = n := by omega
      have unused : n % 4 = 0 := by omega
      have first : n / 1024 = a.toNat := by omega
      have second : n / 4 % 256 = b.toNat := by omega
      simp [joined, unused, first, second]
  | case4 a b c rest ih =>
      have smallA := a.toNat_lt
      have smallB := b.toNat_lt
      have smallC := c.toNat_lt
      rw [encode, decode_cons_of_ne _ (digit_ne_padding (by omega))]
      rw [value?_digit (by omega), value?_digit (by omega), value?_digit (by omega),
        value?_digit (by omega), ih]
      generalize whole : (a.toNat * 256 + b.toNat) * 256 + c.toNat = n
      have joined :
          262144 * (n / 262144) + 4096 * (n / 4096 % 64) + 64 * (n / 64 % 64) + n % 64 = n := by
        omega
      have first : n / 65536 = a.toNat := by omega
      have second : n / 256 % 256 = b.toNat := by omega
      have third : n % 256 = c.toNat := by omega
      simp [joined, first, second, third]

end Base64

end DocumentCommand.Text
