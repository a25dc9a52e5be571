import DocumentCommand.Decimal128.Text
import DocumentCommand.Proofs.Text.RoundTrip

/-!
# Decimal numbers read back from their text

The text of a decimal number shows its sign, its coefficient and its exponent, so reading it gives
the number in its canonical packing (`read?_text`).  What is not canonical is lost on the way: the
sign and the further bits of a NaN, the further bits of an infinity, and coefficients that count as
zero.
-/

namespace DocumentCommand.Decimal128

open Text

/-- The canonical packing of the same number; a NaN is quiet and has no sign. -/
def canonical (d : Decimal128) : Decimal128 :=
  match d.magnitude with
  | .nan _ => ofParts false (.nan false)
  | m => ofParts d.isNegative m

/-- The numbers in canonical packing: finite ones whose coefficient has at most 34 digits, the
infinities without further bits, and the quiet NaN without sign. -/
inductive IsCanonical : Decimal128 → Prop where
  | finite (negative : Bool) {coefficient : Nat} {exponent : Int}
      (digits : coefficient < Nat.pow 10 precision)
      (least : minExponent ≤ exponent) (greatest : exponent ≤ maxExponent) :
      IsCanonical (ofParts negative (.finite coefficient exponent))
  | infinity (negative : Bool) : IsCanonical (ofParts negative .infinity)
  | nan : IsCanonical (ofParts false (.nan false))

/-! ### Cutting a text at a character -/

theorem splitAt?_of_not_mem {c : Char} {text : List Char} (absent : c ∉ text) :
    splitAt? c text = none := by
  simp [splitAt?, absent]

theorem splitAt?_append_cons {c : Char} {before : List Char} (absent : c ∉ before)
    (after : List Char) : splitAt? c (before ++ c :: after) = some (before, after) := by
  have keep : ∀ a ∈ before, decide (a ≠ c) = true := by
    intro a member
    have other : a ≠ c := by
      rintro rfl
      exact absent member
    simpa using other
  simp only [splitAt?, List.takeWhile_append_of_pos keep, List.dropWhile_append_of_pos keep]
  simp

/-! ### Digits and their leading zeros -/

/-- Without its leading zeros a numeral is the numeral itself, except that nothing stays of zero. -/
theorem dropWhile_zeros_append (zeros n : Nat) :
    (List.replicate zeros '0' ++ Digits.ofNat n).dropWhile (· = '0')
      = if n = 0 then [] else Digits.ofNat n := by
  have skipped : ∀ c ∈ List.replicate zeros '0', decide (c = '0') = true := by
    intro c member
    simpa using (List.eq_of_mem_replicate member)
  rw [List.dropWhile_append_of_pos skipped]
  split
  · next zero => subst zero; rfl
  · next positive =>
      have first := Digits.head?_ofNat_ne_zero (Nat.pos_of_ne_zero positive)
      cases digits : Digits.ofNat n with
      | nil => rfl
      | cons c rest =>
          rw [digits] at first
          have nonzero : c ≠ '0' := by
            rintro rfl
            exact first rfl
          simp [nonzero]

theorem stripZeros_append (zeros n : Nat) :
    stripZeros (List.replicate zeros '0' ++ Digits.ofNat n) = Digits.ofNat n := by
  rw [stripZeros, dropWhile_zeros_append]
  by_cases zero : n = 0
  · subst zero
    rfl
  · simp [zero]

theorem length_ofNat_le {coefficient : Nat} (inRange : coefficient < Nat.pow 10 precision) :
    (Digits.ofNat coefficient).length ≤ precision :=
  (Nat.length_toDigits_le_iff (by decide) (by decide)).2 inRange

theorem not_mem_ofNat {c : Char} (noDigit : c.isDigit = false) (n : Nat) : c ∉ Digits.ofNat n := by
  intro member
  rw [Digits.isDigit_of_mem_ofNat member] at noDigit
  contradiction

theorem readUnsigned?_ofNat (n : Nat) : Digits.readUnsigned? (Digits.ofNat n) = some n := by
  unfold Digits.readUnsigned?
  split
  · next digits written =>
      have noPlus : '+' ∉ Digits.ofNat n := not_mem_ofNat (by decide) n
      exact absurd (written ▸ List.mem_cons_self) noPlus
  · exact Digits.readNat?_ofNat n

/-! ### Finite numbers -/

section Finite

variable {coefficient : Nat} {exponent : Int}

theorem fitExponent?_of_range {digits : List Char} (least : minExponent ≤ exponent)
    (greatest : exponent ≤ maxExponent) :
    fitExponent? digits exponent = some (digits, exponent) := by
  simp [fitExponent?, Int.not_lt.2 least, Int.not_lt.2 greatest]

theorem isInt128_of_small {n : Int} (least : -10000 ≤ n) (greatest : n ≤ 10000) :
    Integer.isInt128 n = true := by
  have wide : 10000 < ((Nat.pow 2 127 : Nat) : Int) := by decide
  simp only [Integer.isInt128, Bool.and_eq_true, decide_eq_true_eq]
  omega

/-- A text is read as what stands in it once it is cut at its exponent and at its point. -/
theorem readFinite?_of_cut (inRange : coefficient < Nat.pow 10 precision)
    (least : minExponent ≤ exponent) (greatest : exponent ≤ maxExponent)
    {text decimal : List Char} {written : Int} (zeros : Nat) {places : Nat}
    (atExponent : cutExponent? text = some (decimal, written))
    (atPoint : cutPoint decimal = (List.replicate zeros '0' ++ Digits.ofNat coefficient, places))
    (exact : written - (places : Int) = exponent) :
    readFinite? text = some (.finite coefficient exponent) := by
  have bounds : minExponent = -6176 ∧ maxExponent = 6111 := ⟨rfl, rfl⟩
  have fits : Integer.isInt128 exponent = true :=
    isInt128_of_small (by omega) (by omega)
  have precise : fitPrecision? (Digits.ofNat coefficient) exponent
      = some (Digits.ofNat coefficient, exponent) :=
    if_pos (length_ofNat_le inRange)
  have admitted : (guard (Integer.isInt128 exponent = true) : Option Unit) = some () :=
    if_pos fits
  unfold readFinite?
  rw [atExponent, Option.bind_eq_bind, Option.bind_some]
  dsimp only
  rw [atPoint]
  dsimp only
  rw [exact, stripZeros_append, admitted, precise]
  simp only [Option.bind_eq_bind, Option.bind_some, fitExponent?_of_range least greatest,
    readUnsigned?_ofNat, Option.pure_def]

theorem cutExponent?_of_not_mem {text : List Char} (absent : 'e' ∉ text) :
    cutExponent? text = some (text, 0) := by
  simp [cutExponent?, splitAt?_of_not_mem absent]

theorem cutPoint_of_not_mem {text : List Char} (absent : '.' ∉ text) :
    cutPoint text = (text, 0) := by
  simp [cutPoint, splitAt?_of_not_mem absent]

theorem cutPoint_append_cons {before : List Char} (absent : '.' ∉ before) (after : List Char) :
    cutPoint (before ++ '.' :: after) = (before ++ after, after.length) := by
  simp [cutPoint, splitAt?_append_cons absent]

/-- An exponent may carry the plus sign that the text of a number shows. -/
theorem readExponent?_signed (wide : Integer.isInt128 exponent = true) :
    readExponent? ((if 0 < exponent then ['+'] else []) ++ Digits.ofInt exponent)
      = some exponent := by
  have signed : Digits.readSigned?
      ((if 0 < exponent then ['+'] else []) ++ Digits.ofInt exponent) = some exponent := by
    by_cases positive : 0 < exponent
    · obtain ⟨n, rfl⟩ := Int.eq_ofNat_of_zero_le (Int.le_of_lt positive)
      rw [if_pos positive]
      simp [Digits.readSigned?, Digits.readUnsigned?, Digits.ofInt]
    · simp [positive]
  simp [readExponent?, signed, wide]

theorem toLower_of_isDigit {c : Char} (digit : c.isDigit = true) : c.toLower = c := by
  simp only [Char.isDigit, Bool.and_eq_true, decide_eq_true_eq] at digit
  unfold Char.toLower
  split
  · next upper =>
      have above : 65 ≤ c.val.toNat := upper.1
      have below : c.val.toNat ≤ 57 := digit.2
      omega
  · rfl

/-- Digits and points only. -/
def IsNumeral (text : List Char) : Prop :=
  ∀ c ∈ text, c.isDigit = true ∨ c = '.'

theorem isNumeral_ofNat (n : Nat) : IsNumeral (Digits.ofNat n) := by
  intro c member
  exact .inl (Digits.isDigit_of_mem_ofNat member)

theorem IsNumeral.pointed {before after : List Char} (digits : IsNumeral (before ++ after)) :
    IsNumeral (before ++ '.' :: after) := by
  intro c member
  rcases List.mem_append.1 member with first | second
  · exact digits c (List.mem_append_left _ first)
  · rcases List.mem_cons.1 second with point | last
    · exact .inr point
    · exact digits c (List.mem_append_right _ last)

theorem IsNumeral.not_mem_mark {text : List Char} (numeral : IsNumeral text) : 'e' ∉ text := by
  intro member
  rcases numeral 'e' member with digit | point <;> contradiction

theorem IsNumeral.map_toLower {text : List Char} (numeral : IsNumeral text) :
    text.map Char.toLower = text := by
  have unchanged : ∀ c ∈ text, c.toLower = c := by
    intro c member
    rcases numeral c member with digit | rfl
    · exact toLower_of_isDigit digit
    · rfl
  exact (List.map_congr_left unchanged).trans (List.map_id' text)

theorem map_toLower_signed (n : Int) :
    ((if 0 < n then ['+'] else []) ++ Digits.ofInt n).map Char.toLower
      = (if 0 < n then ['+'] else []) ++ Digits.ofInt n := by
  have unsigned : (Digits.ofInt n).map Char.toLower = Digits.ofInt n := by
    cases n with
    | ofNat n => exact (isNumeral_ofNat n).map_toLower
    | negSucc n =>
        rw [Digits.ofInt, List.map_cons, (isNumeral_ofNat (n + 1)).map_toLower]
        rfl
  rw [List.map_append, unsigned]
  split <;> rfl

/-- A text without exponent is read with the number of its places as its exponent. -/
theorem readFinite?_plain (inRange : coefficient < Nat.pow 10 precision)
    (least : minExponent ≤ exponent) (greatest : exponent ≤ maxExponent)
    {decimal : List Char} (zeros : Nat) {places : Nat} (numeral : IsNumeral decimal)
    (atPoint : cutPoint decimal = (List.replicate zeros '0' ++ Digits.ofNat coefficient, places))
    (exact : -(places : Int) = exponent) :
    readFinite? (decimal.map Char.toLower) = some (.finite coefficient exponent) := by
  rw [numeral.map_toLower]
  have atExponent := cutExponent?_of_not_mem numeral.not_mem_mark
  exact readFinite?_of_cut inRange least greatest zeros atExponent atPoint (by omega)

/-- The exponent of a text is counted from its point. -/
theorem readFinite?_scientific (inRange : coefficient < Nat.pow 10 precision)
    (least : minExponent ≤ exponent) (greatest : exponent ≤ maxExponent)
    {decimal : List Char} {places : Nat} {written : Int} (numeral : IsNumeral decimal)
    (atPoint : cutPoint decimal = (Digits.ofNat coefficient, places))
    (wide : Integer.isInt128 written = true) (exact : written - (places : Int) = exponent) :
    readFinite? ((decimal ++ 'E' :: ((if 0 < written then ['+'] else [])
      ++ Digits.ofInt written)).map Char.toLower) = some (.finite coefficient exponent) := by
  rw [List.map_append, numeral.map_toLower, List.map_cons, map_toLower_signed]
  have atExponent : cutExponent? (decimal ++ Char.toLower 'E' ::
      ((if 0 < written then ['+'] else []) ++ Digits.ofInt written)) = some (decimal, written) := by
    rw [show Char.toLower 'E' = 'e' from rfl, cutExponent?,
      splitAt?_append_cons numeral.not_mem_mark]
    simp only [readExponent?_signed wide, Option.map_some]
  exact readFinite?_of_cut inRange least greatest 0 atExponent atPoint exact

/-- Digits with a point among them are cut into all the digits and the places behind the point. -/
theorem cutPoint_pointed {before after : List Char}
    (joined : before ++ after = Digits.ofNat coefficient) :
    IsNumeral (before ++ '.' :: after) ∧
      cutPoint (before ++ '.' :: after) = (Digits.ofNat coefficient, after.length) := by
  have numeral : IsNumeral (before ++ after) := joined ▸ isNumeral_ofNat coefficient
  have noPoint : '.' ∉ before := by
    intro member
    have whole : '.' ∈ Digits.ofNat coefficient := joined ▸ List.mem_append_left after member
    exact not_mem_ofNat (by decide) coefficient whole
  exact ⟨numeral.pointed, joined ▸ cutPoint_append_cons noPoint after⟩

/-- Digits with zeros before them are cut into both, all of them behind the point. -/
theorem cutPoint_zeros (k : Nat) :
    IsNumeral ('0' :: '.' :: (List.replicate k '0' ++ Digits.ofNat coefficient)) ∧
      cutPoint ('0' :: '.' :: (List.replicate k '0' ++ Digits.ofNat coefficient))
        = (List.replicate (k + 1) '0' ++ Digits.ofNat coefficient,
          k + (Digits.ofNat coefficient).length) := by
  have zeros : IsNumeral (['0'] ++ (List.replicate k '0' ++ Digits.ofNat coefficient)) := by
    intro c member
    simp only [List.mem_append, List.mem_singleton, List.mem_replicate] at member
    rcases member with rfl | ⟨-, rfl⟩ | digit
    · exact .inl rfl
    · exact .inl rfl
    · exact isNumeral_ofNat coefficient c digit
  have atPoint := cutPoint_append_cons (by decide : '.' ∉ ['0'])
    (List.replicate k '0' ++ Digits.ofNat coefficient)
  rw [List.length_append, List.length_replicate] at atPoint
  exact ⟨zeros.pointed, atPoint⟩

theorem length_ofNat_of_short
    (short : ∀ first second rest, Digits.ofNat coefficient ≠ first :: second :: rest) :
    (Digits.ofNat coefficient).length = 1 := by
  cases digits : Digits.ofNat coefficient with
  | nil => exact absurd digits (Digits.ofNat_ne_nil coefficient)
  | cons first rest =>
      cases rest with
      | nil => rfl
      | cons second rest => exact absurd digits (short first second rest)

/-- A finite number is read back from its text in lower case. -/
theorem readFinite?_finiteText (inRange : coefficient < Nat.pow 10 precision)
    (least : minExponent ≤ exponent) (greatest : exponent ≤ maxExponent) :
    readFinite? ((finiteText coefficient exponent).map Char.toLower)
      = some (.finite coefficient exponent) := by
  have numeral := isNumeral_ofNat coefficient
  have noPoint : '.' ∉ Digits.ofNat coefficient := not_mem_ofNat (by decide) coefficient
  unfold finiteText
  simp only
  split
  · next plain =>
      split
      · next whole =>
          exact readFinite?_plain inRange least greatest 0 numeral
            (cutPoint_of_not_mem noPoint) (by omega)
      · split
        · next inside =>
            obtain ⟨pointed, atPoint⟩ := cutPoint_pointed (List.take_append_drop
              ((Digits.ofNat coefficient).length - (-exponent).toNat) (Digits.ofNat coefficient))
            refine readFinite?_plain inRange least greatest 0 pointed atPoint ?_
            rw [List.length_drop]
            omega
        · next outside =>
            generalize fill : (-exponent).toNat - (Digits.ofNat coefficient).length = k
            obtain ⟨pointed, atPoint⟩ := cutPoint_zeros k
            exact readFinite?_plain inRange least greatest (k + 1) pointed atPoint (by omega)
  · next scientific =>
      have bounds : minExponent = -6176 ∧ maxExponent = 6111 ∧ precision = 34 := ⟨rfl, rfl, rfl⟩
      have short := length_ofNat_le inRange
      have nonempty : 0 < (Digits.ofNat coefficient).length :=
        List.length_pos_iff.2 (Digits.ofNat_ne_nil coefficient)
      have wide : Integer.isInt128 (exponent + (Digits.ofNat coefficient).length - 1) = true :=
        isInt128_of_small (by omega) (by omega)
      split
      · next first second rest written =>
          obtain ⟨pointed, atPoint⟩ :=
            cutPoint_pointed (show [first] ++ second :: rest = _ from written.symm)
          refine readFinite?_scientific inRange least greatest pointed atPoint wide ?_
          simp only [written, List.length_cons]
          omega
      · next short =>
          have single := length_ofNat_of_short short
          exact readFinite?_scientific inRange least greatest numeral
            (cutPoint_of_not_mem noPoint) wide (by omega)

/-- The text of a finite number starts with a digit. -/
theorem head?_finiteText : ∀ c ∈ (finiteText coefficient exponent).head?, c.isDigit = true := by
  obtain ⟨first, rest, digits⟩ := List.exists_cons_of_ne_nil (Digits.ofNat_ne_nil coefficient)
  have digit : first.isDigit = true :=
    Digits.isDigit_of_mem_ofNat (n := coefficient) (by rw [digits]; exact List.mem_cons_self)
  unfold finiteText
  simp only [digits]
  split
  · split
    · simpa using digit
    · split
      · next inside =>
          obtain ⟨k, keep⟩ := Nat.exists_eq_add_of_lt inside
          rw [keep, show (-exponent).toNat + k + 1 - (-exponent).toNat = k + 1 by omega]
          simpa using digit
      · simp
  · split
    · next head _ _ written =>
        simp only [List.cons.injEq] at written
        simpa [← written.1] using digit
    · simpa using digit

/-- A finite number is read back from its text. -/
theorem readMagnitude?_finiteText (inRange : coefficient < Nat.pow 10 precision)
    (least : minExponent ≤ exponent) (greatest : exponent ≤ maxExponent) :
    readMagnitude? (finiteText coefficient exponent) = some (.finite coefficient exponent) := by
  have read := readFinite?_finiteText inRange least greatest
  have notWord : ∀ word : List Char, readFinite? word = none →
      (finiteText coefficient exponent).map Char.toLower ≠ word := by
    rintro word unread rfl
    simp [unread] at read
  rw [readMagnitude?]
  simp only [notWord "nan".toList rfl, notWord "snan".toList rfl, notWord "inf".toList rfl,
    notWord "infinity".toList rfl, if_false, or_self, read]

end Finite

/-! ### Packing -/

section Packing

theorem signWeight_eq : signWeight = 0x80000000000000000000000000000000 := rfl

theorem kindWeight_eq : kindWeight = 0x4000000000000000000000000000000 := rfl

theorem exponentWeight_eq : exponentWeight = 0x20000000000000000000000000000 := rfl

theorem toNat_ofParts (negative : Bool) {m : Magnitude} (fits : m.pack < signWeight) :
    (ofParts negative m).bits.toNat = (if negative then signWeight else 0) + m.pack := by
  rw [ofParts, BitVec.toNat_ofNat]
  refine Nat.mod_eq_of_lt ?_
  rw [signWeight_eq] at *
  split <;> omega

theorem isNegative_ofParts (negative : Bool) {m : Magnitude} (fits : m.pack < signWeight) :
    (ofParts negative m).isNegative = negative := by
  rw [isNegative, BitVec.getLsbD, toNat_ofParts negative fits, Nat.testBit_eq_decide_div_mod_eq]
  rw [signWeight_eq] at *
  cases negative <;> simp <;> omega

theorem magnitude_ofParts_infinity (negative : Bool) :
    (ofParts negative .infinity).magnitude = .infinity := by
  cases negative <;> rfl

theorem magnitude_ofParts_nan : (ofParts false (.nan false)).magnitude = .nan false := rfl

variable {coefficient : Nat} {exponent : Int}

theorem coefficient_lt_exponentWeight (inRange : coefficient < Nat.pow 10 precision) :
    coefficient < exponentWeight :=
  Nat.lt_trans inRange (by decide)

/-- The fields of a packed finite number: an exponent field below three quarters of its range keeps
clear of the patterns that stand for anything else. -/
theorem fields_of_packed {sign biased coefficient : Nat} (top : sign = 0 ∨ sign = signWeight)
    (low : biased < 12288) (below : coefficient < exponentWeight) :
    let n := sign + (biased * exponentWeight + coefficient)
    n / kindWeight % 32 < 24 ∧ n / Nat.pow 2 125 % 4 < 3 ∧ n % exponentWeight = coefficient ∧
      n / exponentWeight % Nat.pow 2 14 = biased := by
  have quarter : Nat.pow 2 125 = 0x20000000000000000000000000000000 := rfl
  have field : Nat.pow 2 14 = 16384 := rfl
  simp only [signWeight_eq, kindWeight_eq, exponentWeight_eq, quarter, field] at *
  omega

theorem biased_bounds (least : minExponent ≤ exponent) (greatest : exponent ≤ maxExponent) :
    (exponent - minExponent).toNat < 12288 ∧
      ((exponent - minExponent).toNat : Int) + minExponent = exponent := by
  have bounds : minExponent = -6176 ∧ maxExponent = 6111 := ⟨rfl, rfl⟩
  omega

theorem pack_finite_lt (inRange : coefficient < Nat.pow 10 precision)
    (least : minExponent ≤ exponent) (greatest : exponent ≤ maxExponent) :
    (Magnitude.finite coefficient exponent).pack < signWeight := by
  have below := coefficient_lt_exponentWeight inRange
  obtain ⟨low, -⟩ := biased_bounds least greatest
  simp only [Magnitude.pack, exponentWeight_eq, signWeight_eq] at *
  omega

theorem magnitude_ofParts_finite (negative : Bool) (inRange : coefficient < Nat.pow 10 precision)
    (least : minExponent ≤ exponent) (greatest : exponent ≤ maxExponent) :
    (ofParts negative (.finite coefficient exponent)).magnitude = .finite coefficient exponent := by
  have below := coefficient_lt_exponentWeight inRange
  obtain ⟨low, unbiased⟩ := biased_bounds least greatest
  have top : (if negative then signWeight else 0) = 0 ∨
      (if negative then signWeight else 0) = signWeight := by
    cases negative <;> simp
  obtain ⟨kind, quarter, digits, field⟩ := fields_of_packed top low below
  unfold magnitude
  rw [toNat_ofParts negative (pack_finite_lt inRange least greatest), Magnitude.pack]
  simp only [digits, field, unbiased, inRange, if_true]
  rw [if_neg (by omega), if_neg (by omega), if_neg (by omega)]

/-- The exponent field of either packing is below three quarters of its range when the bits stand
for neither an infinity nor a NaN. -/
theorem field_lt {n : Nat} (number : n / kindWeight % 32 < 30) :
    (n / Nat.pow 2 125 % 4 = 3 → n / Nat.pow 2 111 % Nat.pow 2 14 < 12288) ∧
      (n / Nat.pow 2 125 % 4 ≠ 3 → n / exponentWeight % Nat.pow 2 14 < 12288) := by
  have quarter : Nat.pow 2 125 = 0x20000000000000000000000000000000 := rfl
  have second : Nat.pow 2 111 = 0x8000000000000000000000000000 := rfl
  have field : Nat.pow 2 14 = 16384 := rfl
  simp only [kindWeight_eq, exponentWeight_eq, quarter, second, field] at *
  omega

/-- Whatever the bits, coefficient and exponent are in range. -/
theorem magnitude_finite {d : Decimal128} (finite : d.magnitude = .finite coefficient exponent) :
    coefficient < Nat.pow 10 precision ∧ minExponent ≤ exponent ∧ exponent ≤ maxExponent := by
  have bounds : minExponent = -6176 ∧ maxExponent = 6111 := ⟨rfl, rfl⟩
  have some : 0 < Nat.pow 10 precision := by decide
  unfold magnitude at finite
  simp only at finite
  split at finite
  · contradiction
  · next notNan =>
      split at finite
      · contradiction
      · next notInfinity =>
          have fields := field_lt (n := d.bits.toNat) (by omega)
          split at finite
          · next second =>
              injection finite with zero unbiased
              have := fields.1 second
              omega
          · next first =>
              injection finite with digits unbiased
              have := fields.2 first
              split at digits <;> omega

theorem canonical_of_finite {d : Decimal128} (finite : d.magnitude = .finite coefficient exponent) :
    d.canonical = ofParts d.isNegative (.finite coefficient exponent) := by
  rw [canonical, finite]

theorem canonical_of_infinity {d : Decimal128} (infinite : d.magnitude = .infinity) :
    d.canonical = ofParts d.isNegative .infinity := by
  rw [canonical, infinite]

theorem canonical_of_nan {d : Decimal128} {signalling : Bool}
    (nan : d.magnitude = .nan signalling) : d.canonical = ofParts false (.nan false) := by
  rw [canonical, nan]

theorem isNegative_ofParts_infinity (negative : Bool) :
    (ofParts negative .infinity).isNegative = negative :=
  isNegative_ofParts negative (by decide)

theorem isCanonical_canonical (d : Decimal128) : d.canonical.IsCanonical := by
  cases kind : d.magnitude with
  | nan signalling =>
      rw [canonical_of_nan kind]
      exact .nan
  | infinity =>
      rw [canonical_of_infinity kind]
      exact .infinity _
  | finite coefficient exponent =>
      obtain ⟨inRange, least, greatest⟩ := magnitude_finite kind
      rw [canonical_of_finite kind]
      exact .finite _ inRange least greatest

/-- Numbers in canonical packing stay as they are. -/
theorem IsCanonical.canonical_eq {d : Decimal128} (packed : d.IsCanonical) : d.canonical = d := by
  cases packed with
  | finite negative inRange least greatest =>
      rw [canonical_of_finite (magnitude_ofParts_finite negative inRange least greatest),
        isNegative_ofParts negative (pack_finite_lt inRange least greatest)]
  | infinity negative =>
      rw [canonical_of_infinity (magnitude_ofParts_infinity negative),
        isNegative_ofParts_infinity]
  | nan => rfl

instance (d : Decimal128) : Decidable d.IsCanonical :=
  decidable_of_iff (d.canonical = d) ⟨fun same => same ▸ isCanonical_canonical d, (·.canonical_eq)⟩

/-- The canonical packing has the same text. -/
theorem text_canonical (d : Decimal128) : d.canonical.text = d.text := by
  cases kind : d.magnitude with
  | nan signalling =>
      rw [canonical_of_nan kind, text, text, kind, magnitude_ofParts_nan]
  | infinity =>
      rw [canonical_of_infinity kind, text, text, kind, magnitude_ofParts_infinity,
        isNegative_ofParts_infinity]
  | finite coefficient exponent =>
      obtain ⟨inRange, least, greatest⟩ := magnitude_finite kind
      rw [canonical_of_finite kind, text, text, kind,
        magnitude_ofParts_finite _ inRange least greatest,
        isNegative_ofParts _ (pack_finite_lt inRange least greatest)]

end Packing

/-- Text that starts with a digit is read without a sign. -/
theorem read?_of_head? {text : List Char} (digit : ∀ c ∈ text.head?, c.isDigit = true) :
    read? text = (readMagnitude? text).map (ofParts false) := by
  unfold read?
  split
  · exact absurd (digit '-' rfl) (by decide)
  · exact absurd (digit '+' rfl) (by decide)
  · rfl

/-- Reading the text of a number gives its canonical packing. -/
theorem read?_text (d : Decimal128) : read? d.text = some d.canonical := by
  unfold text canonical
  cases kind : d.magnitude with
  | nan signalling => rfl
  | infinity => cases d.isNegative <;> rfl
  | finite coefficient exponent =>
      obtain ⟨inRange, least, greatest⟩ := magnitude_finite kind
      have read := readMagnitude?_finiteText inRange least greatest
      cases d.isNegative with
      | true => simp [read?, read]
      | false => simp [read?_of_head? head?_finiteText, read]

end DocumentCommand.Decimal128
