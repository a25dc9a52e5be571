import DocumentCommand.Json.Node

/-!
# The grammar of JSON

Which texts are JSON, without regard to how they are scanned.  Blanks stand around values, so an
element of an array is a value with its blanks (`Item`) and a member of an object is a name with
such an element (`Member`); arrays and objects are built of them by commas.  There is no bound on
depth and none on the size of numbers.

Numeric escapes may be halves of characters, and a value may hold halves that stand alone.  What a
string says (`Says`) takes them in pairs, and is the same however its characters are escaped.
-/

namespace DocumentCommand.Json.Grammar

/-- Blanks only, or nothing. -/
def IsBlank (text : List Char) : Prop :=
  ∀ c ∈ text, Node.isBlank c = true

instance : DecidablePred IsBlank := fun text =>
  decidable_of_iff (text.all Node.isBlank = true) List.all_eq_true

/-! ### Numbers -/

/-- One digit or more. -/
def IsDigits (text : List Char) : Prop :=
  text ≠ [] ∧ ∀ c ∈ text, c.isDigit = true

instance : DecidablePred IsDigits := fun text =>
  decidable_of_iff (text ≠ [] ∧ text.all Char.isDigit = true)
    (and_congr_right fun _ => List.all_eq_true)

/-- The digits before the point.  Zero is the only number that starts with zero. -/
def IsWhole (text : List Char) : Prop :=
  IsDigits text ∧ (text.head? = some '0' → text = ['0'])

instance : DecidablePred IsWhole := fun text =>
  inferInstanceAs (Decidable (IsDigits text ∧ (text.head? = some '0' → text = ['0'])))

/-- The point and the digits behind it, if there are any. -/
inductive IsFraction : List Char → Prop where
  | absent : IsFraction []
  | point {digits : List Char} : IsDigits digits → IsFraction ('.' :: digits)

/-- The exponent, if there is one. -/
inductive IsExponent : List Char → Prop where
  | absent : IsExponent []
  | unsigned {mark : Char} {digits : List Char} : mark = 'e' ∨ mark = 'E' → IsDigits digits →
      IsExponent (mark :: digits)
  | signed {mark sign : Char} {digits : List Char} : mark = 'e' ∨ mark = 'E' →
      sign = '+' ∨ sign = '-' → IsDigits digits → IsExponent (mark :: sign :: digits)

/-- A number. -/
inductive IsNumber : List Char → Prop where
  | unsigned {whole fraction exponent : List Char} : IsWhole whole → IsFraction fraction →
      IsExponent exponent → IsNumber (whole ++ (fraction ++ exponent))
  | negative {whole fraction exponent : List Char} : IsWhole whole → IsFraction fraction →
      IsExponent exponent → IsNumber ('-' :: (whole ++ (fraction ++ exponent)))

/-! ### Strings -/

/-- A character that may stand in a string as it is. -/
def isPlain (c : Char) : Bool :=
  0x20 ≤ c.toNat && c != '"' && c != '\\'

/-- How the pieces of a string are written between its quotation marks. -/
inductive Written : List Piece → List Char → Prop where
  | nil : Written [] []
  | plain {c : Char} {pieces : List Piece} {text : List Char} : isPlain c = true →
      Written pieces text → Written (.char c :: pieces) (c :: text)
  | short {e c : Char} {pieces : List Piece} {text : List Char} :
      Quoted.shortEscape? e = some c → Written pieces text →
      Written (.char c :: pieces) ('\\' :: e :: text)
  | unit {a b c d : Char} {n : Nat} {pieces : List Piece} {text : List Char} :
      Text.Hex.natValue? [a, b, c, d] = some n → Written pieces text →
      Written (.unit n :: pieces) ('\\' :: 'u' :: a :: b :: c :: d :: text)

/-- The characters that pieces stand for.  Two halves of a character stand next to each other and in
order. -/
inductive Spells : List Piece → List Char → Prop where
  | nil : Spells [] []
  | char (c : Char) {pieces : List Piece} {chars : List Char} : Spells pieces chars →
      Spells (.char c :: pieces) (c :: chars)
  | unit {n : Nat} {pieces : List Piece} {chars : List Char} : Quoted.isLead n = false →
      Quoted.isTrail n = false → Spells pieces chars →
      Spells (.unit n :: pieces) (Char.ofNat n :: chars)
  | pair {n m : Nat} {pieces : List Piece} {chars : List Char} : Quoted.isLead n = true →
      Quoted.isTrail m = true → Spells pieces chars →
      Spells (.unit n :: .unit m :: pieces) (Quoted.paired n m :: chars)

/-- What stands between the quotation marks of a string. -/
def IsInside (text : List Char) : Prop :=
  ∃ pieces, Written pieces text

/-- The text between the quotation marks of a string says this. -/
def Says (text : List Char) (s : String) : Prop :=
  ∃ pieces, Written pieces text ∧ Spells pieces s.toList

theorem Says.isInside {text : List Char} {s : String} (named : Says text s) : IsInside text := by
  obtain ⟨pieces, written, -⟩ := named
  exact ⟨pieces, written⟩

/-- A text in which nothing has to be escaped says itself. -/
theorem says_ofList {chars : List Char} (plain : chars.all isPlain = true) :
    Says chars (String.ofList chars) := by
  have written : Written (chars.map .char) chars ∧ Spells (chars.map .char) chars := by
    induction chars with
    | nil => exact ⟨.nil, .nil⟩
    | cons c chars ih =>
        obtain ⟨first, others⟩ := Bool.and_eq_true_iff.1 plain
        obtain ⟨written, spells⟩ := ih others
        exact ⟨.plain first written, .char c spells⟩
  exact ⟨_, written.1, by rw [String.toList_ofList]; exact written.2⟩

/-! ### Values -/

/-- A value and the blanks around it. -/
structure Item where
  before : List Char
  value : List Char
  after : List Char

/-- A member of an object: its name without quotation marks, and its value. -/
structure Member where
  before : List Char
  name : List Char
  afterName : List Char
  item : Item

/-- The text of a value with its blanks. -/
def Item.text (i : Item) : List Char :=
  i.before ++ (i.value ++ i.after)

/-- The text of a member. -/
def Member.text (m : Member) : List Char :=
  m.before ++ '"' :: (m.name ++ '"' :: (m.afterName ++ ':' :: m.item.text))

/-- Are there only blanks around the value? -/
structure Item.Framed (i : Item) : Prop where
  before : IsBlank i.before
  after : IsBlank i.after

/-- Is the member well-formed but for its value? -/
structure Member.Framed (m : Member) : Prop where
  before : IsBlank m.before
  name : IsInside m.name
  afterName : IsBlank m.afterName
  item : m.item.Framed

/-- The text of an array.  Where there are no elements there may be blanks. -/
def arrayText (gap : List Char) (items : List Item) : List Char :=
  '[' :: (gap ++ ([','].intercalate (items.map Item.text) ++ [']']))

/-- The text of an object. -/
def objectText (gap : List Char) (members : List Member) : List Char :=
  '\x7b' :: (gap ++ ([','].intercalate (members.map Member.text) ++ ['\x7d']))

/-- A value without blanks around it. -/
inductive IsValue : List Char → Prop where
  | word {text : List Char} : text ∈ ["null".toList, "true".toList, "false".toList] → IsValue text
  | number {text : List Char} : IsNumber text → IsValue text
  | string {inside : List Char} : IsInside inside → IsValue ('"' :: (inside ++ ['"']))
  | array {gap : List Char} {items : List Item} : IsBlank gap → (∀ i ∈ items, i.Framed) →
      (∀ i ∈ items, IsValue i.value) → IsValue (arrayText gap items)
  | object {gap : List Char} {members : List Member} : IsBlank gap →
      (∀ m ∈ members, m.Framed) → (∀ m ∈ members, IsValue m.item.value) →
      IsValue (objectText gap members)

/-- A member of an object, with its value. -/
structure Member.WellFormed (m : Member) : Prop extends m.Framed where
  value : IsValue m.item.value

/-- The blanks of a text that is an object: around it, and behind its opening brace. -/
structure Frame where
  before : List Char
  gap : List Char
  after : List Char
  blankBefore : IsBlank before
  blankGap : IsBlank gap
  blankAfter : IsBlank after

/-- The text of an object with these members. -/
def Frame.text (t : Frame) (members : List Member) : List Char :=
  t.before ++ (objectText t.gap members ++ t.after)

end DocumentCommand.Json.Grammar
