import DocumentCommand.Json.Datum
import DocumentCommand.Json.Node
import DocumentCommand.Proofs.Text.RoundTrip

/-!
# The tree of a compact text

The compact text of a datum is scanned back into one tree (`Node.ofText_text`), whose strings and
numbers mean what was written.  Numbers with a point or an exponent are left out.
-/

namespace DocumentCommand.Json

open Text

/-! ### Strings -/

namespace Quoted

/-- The piece that a character is written as: a numeric escape for the control characters that have
no short one. -/
def pieceOf (c : Char) : Piece :=
  if c.toNat < 0x20 ∧ c ∉ ['\x08', '\x0c', '\n', '\r', '\t'] then .unit c.toNat else .char c

/-- The string as it is written between its quotation marks. -/
def ofString (s : String) : Quoted :=
  ⟨s.toList.map pieceOf, none⟩

/-- One written character is one piece. -/
theorem scan_escaped_append (c : Char) (rest : List Char) :
    scan (Datum.escaped c ++ rest) = cons (pieceOf c) (scan rest) := by
  by_cases short : c ∈ ['"', '\\', '\x08', '\x0c', '\n', '\r', '\t']
  · simp only [List.mem_cons, List.not_mem_nil, or_false] at short
    rcases short with rfl | rfl | rfl | rfl | rfl | rfl | rfl <;> rfl
  · simp only [List.mem_cons, List.not_mem_nil, or_false, not_or] at short
    obtain ⟨quote, backslash, backspace, feed, newline, carriage, tab⟩ := short
    simp only [Datum.escaped, quote, backslash, backspace, feed, newline, carriage, tab, if_false]
    split
    · next control =>
        have piece : pieceOf c = .unit c.toNat := by
          simp [pieceOf, control, backspace, feed, newline, carriage, tab]
        have digits := Hex.natValue?_byte (Nat.lt_trans control (by decide))
        simp only [List.cons_append, List.nil_append, scan, digits, piece]
    · next plain =>
        have piece : pieceOf c = .char c := by simp [pieceOf, plain]
        rw [List.singleton_append, scan.eq_6] <;> simp [quote, backslash, plain, piece]

theorem scan_ofString_append (chars : List Char) (rest : List Char) :
    scan (chars.flatMap Datum.escaped ++ '"' :: rest) = (⟨chars.map pieceOf, none⟩, rest) := by
  induction chars with
  | nil => rfl
  | cons c chars ih =>
      rw [List.flatMap_cons, List.append_assoc, scan_escaped_append, ih]
      rfl

/-- An escape that is no half of a character stands for a character of its own. -/
theorem characters_whole_cons {n : Nat} (notLead : isLead n = false) (notTrail : isTrail n = false)
    (rest : List Piece) :
    characters none (.unit n :: rest) = (Char.ofNat n :: ·) <$> characters none rest := by
  cases rest with
  | nil => simp [characters, notLead, notTrail]
  | cons p rest => cases p <;> simp [characters, notLead, notTrail]

/-- A numeric escape below the halves of characters is a character of its own. -/
theorem characters_unit_cons {n : Nat} (low : n < 0xD800) (rest : List Piece) :
    characters none (.unit n :: rest) = (Char.ofNat n :: ·) <$> characters none rest := by
  have notLead : isLead n = false := by simp [isLead]; omega
  have notTrail : isTrail n = false := by simp [isTrail]; omega
  exact characters_whole_cons notLead notTrail rest

theorem characters_pieceOf (chars : List Char) :
    characters none (chars.map pieceOf) = .ok chars := by
  induction chars with
  | nil => rfl
  | cons c chars ih =>
      rw [List.map_cons, pieceOf]
      split
      · next control =>
          rw [characters_unit_cons (by omega), ih, Char.ofNat_toNat]
          rfl
      · rw [characters, ih]
        rfl

/-- A string that is written says itself. -/
@[simp] theorem content_ofString (s : String) : (ofString s).content = .ok s := by
  rw [content, ofString, characters_pieceOf]
  exact congrArg Except.ok String.ofList_toList

end Quoted

/-! ### Numbers -/

namespace Numeral

/-- The numeral of an integer. -/
def ofInt (n : Int) : Numeral :=
  ⟨decide (n < 0), Digits.ofNat n.natAbs, [], none⟩

/-- What may stand behind a value within an array or an object. -/
def EndsValue (rest : List Char) : Prop :=
  ∀ c ∈ rest.head?, c = ',' ∨ c = ']' ∨ c = '\x7d'

theorem scanWhole_ofNat_append (n : Nat) {rest : List Char} (ends : EndsValue rest) :
    scanWhole (Digits.ofNat n ++ rest) = .ok (Digits.ofNat n, rest) := by
  have noDigit : ∀ c ∈ rest.head?, c.isDigit = false := by
    intro c first
    rcases ends c first with rfl | rfl | rfl <;> rfl
  have canonical : ¬((Digits.ofNat n).head? = some '0' ∧ Digits.ofNat n ≠ ['0']) := by
    rintro ⟨zero, other⟩
    exact other (Digits.ofNat_eq_zero_of_head? zero)
  simp only [scanWhole, Digits.takeWhile_ofNat_append n noDigit,
    Digits.dropWhile_ofNat_append n noDigit, Digits.ofNat_ne_nil, canonical, if_false]

theorem scanFraction_of_ends {rest : List Char} (ends : EndsValue rest) :
    scanFraction rest = .ok ([], rest) := by
  cases rest with
  | nil => rfl
  | cons c rest => rcases ends c rfl with rfl | rfl | rfl <;> rfl

theorem scanExponent_of_ends {rest : List Char} (ends : EndsValue rest) :
    scanExponent rest = .ok (none, rest) := by
  cases rest with
  | nil => rfl
  | cons c rest => rcases ends c rfl with rfl | rfl | rfl <;> rfl

theorem scanSign_ofNat_append (n : Nat) (rest : List Char) :
    scanSign (Digits.ofNat n ++ rest) = (false, Digits.ofNat n ++ rest) := by
  unfold scanSign
  split
  · next minus =>
      obtain ⟨first, others, digits⟩ := List.exists_cons_of_ne_nil (Digits.ofNat_ne_nil n)
      have digit := Digits.isDigit_of_mem_ofNat (n := n) (digits ▸ List.mem_cons_self)
      rw [digits, List.cons_append, List.cons.injEq] at minus
      rw [minus.1] at digit
      contradiction
  · rfl

theorem scan_ofInt_append (n : Int) {rest : List Char} (ends : EndsValue rest) :
    scan (Digits.ofInt n ++ rest) = .ok (ofInt n, rest) := by
  cases n with
  | ofNat n =>
      simp only [scan, Digits.ofInt, scanSign_ofNat_append, scanWhole_ofNat_append n ends, bind,
        Except.bind, scanFraction_of_ends ends, scanExponent_of_ends ends, pure, Except.pure]
      simp [ofInt]
  | negSucc n =>
      simp only [scan, Digits.ofInt, List.cons_append, scanSign,
        scanWhole_ofNat_append (n + 1) ends, bind, Except.bind, scanFraction_of_ends ends,
        scanExponent_of_ends ends, pure, Except.pure]
      simp [ofInt, Int.negSucc_lt_zero]

/-- The numeral of an integer of at most 64 bits means that integer. -/
theorem value?_ofInt {n : Int} (least : Int64.minValue.toInt ≤ n) (greatest : n < UInt64.size) :
    (ofInt n).value? = some (.integer n) := by
  have inRange : if decide (n < 0) = true then
      0 < n.natAbs ∧ Int64.minValue.toInt ≤ -(n.natAbs : Int) else n.natAbs < UInt64.size := by
    split
    · next negative =>
        have := of_decide_eq_true negative
        omega
    · next positive =>
        have : ¬ n < 0 := by simpa using positive
        omega
  have signed : (if decide (n < 0) = true then -(n.natAbs : Int) else n.natAbs) = n := by
    split
    · next negative =>
        have := of_decide_eq_true negative
        omega
    · next positive =>
        have : ¬ n < 0 := by simpa using positive
        omega
  simp only [value?, ofInt, Digits.value_ofNat, inRange, and_self, if_true, signed]

end Numeral

/-! ### Values -/

namespace Datum

mutual

/-- Is every number within the datum whole? -/
def Whole : Datum → Prop
  | .real _ => False
  | .array items => ItemsWhole items
  | .object members => MembersWhole members
  | _ => True

/-- Are the numbers within the elements whole? -/
def ItemsWhole : List Datum → Prop
  | [] => True
  | item :: rest => Whole item ∧ ItemsWhole rest

/-- Are the numbers within the members whole? -/
def MembersWhole : List (String × Datum) → Prop
  | [] => True
  | (_, item) :: rest => Whole item ∧ MembersWhole rest

end

mutual

/-- The tree of the compact text. -/
def node : Datum → Node
  | .null => .null
  | .bool b => .bool b
  | .integer n => .number (.ofInt n)
  | .real x => (Node.ofText (x.text .scientific)).1
  | .string s => .string (.ofString s)
  | .array items => .array (itemNodes items) .closed
  | .object members => .object (memberNodes members) .closed

/-- The trees of elements. -/
def itemNodes : List Datum → List Node
  | [] => []
  | item :: rest => node item :: itemNodes rest

/-- The trees of members with their names. -/
def memberNodes : List (String × Datum) → List (Quoted × Node)
  | [] => []
  | (name, item) :: rest => (.ofString name, node item) :: memberNodes rest

end

end Datum

namespace Node

open Numeral (EndsValue)

/-- A character that can start a value: no blank, and no bracket that closes an array. -/
def StartsValue (text : List Char) : Prop :=
  ∃ c rest, text = c :: rest ∧ isBlank c = false ∧ c ≠ ']'

theorem StartsValue.append {text : List Char} (starts : StartsValue text) (more : List Char) :
    StartsValue (text ++ more) := by
  obtain ⟨c, rest, rfl, visible, inside⟩ := starts
  exact ⟨c, rest ++ more, rfl, visible, inside⟩

theorem skipBlanks_cons {c : Char} (visible : isBlank c = false) (rest : List Char) :
    skipBlanks (c :: rest) = c :: rest := by
  simp [skipBlanks, visible]

theorem head_ofInt (n : Int) :
    ∃ c rest, Digits.ofInt n = c :: rest ∧ (c = '-' ∨ c.isDigit = true) := by
  cases n with
  | ofNat n =>
      obtain ⟨c, rest, digits⟩ := List.exists_cons_of_ne_nil (Digits.ofNat_ne_nil n)
      have digit := Digits.isDigit_of_mem_ofNat (n := n) (digits ▸ List.mem_cons_self)
      exact ⟨c, rest, digits, .inr digit⟩
  | negSucc n => exact ⟨'-', Digits.ofNat (n + 1), rfl, .inl rfl⟩

/-- What starts a numeral starts nothing else. -/
theorem visible_of_numeral {c : Char} (numeral : c = '-' ∨ c.isDigit = true) :
    isBlank c = false ∧ c ≠ ']' ∧ c ≠ '"' ∧ c ≠ '[' ∧ c ≠ '\x7b' ∧ c ≠ 'n' ∧ c ≠ 't' ∧ c ≠ 'f' := by
  have visible : isBlank c = false := by
    rcases numeral with rfl | digit
    · rfl
    · simp only [isBlank, Bool.or_eq_false_iff, beq_eq_false_iff_ne, ne_eq]
      refine ⟨⟨⟨?_, ?_⟩, ?_⟩, ?_⟩ <;> rintro rfl <;> contradiction
  refine ⟨visible, ?_, ?_, ?_, ?_, ?_, ?_, ?_⟩ <;> rintro rfl <;> revert numeral <;> decide

theorem startsValue_text : ∀ d : Datum, d.Whole → StartsValue d.text
  | .null, _ => ⟨'n', _, rfl, rfl, by decide⟩
  | .bool true, _ => ⟨'t', _, rfl, rfl, by decide⟩
  | .bool false, _ => ⟨'f', _, rfl, rfl, by decide⟩
  | .integer n, _ => by
      obtain ⟨c, rest, digits, numeral⟩ := head_ofInt n
      have visible := visible_of_numeral numeral
      exact ⟨c, rest, digits, visible.1, visible.2.1⟩
  | .real _, whole => whole.elim
  | .string _, _ => ⟨'"', _, rfl, rfl, by decide⟩
  | .array [], _ => ⟨'[', _, rfl, rfl, by decide⟩
  | .array (_ :: _), _ => ⟨'[', _, rfl, rfl, by decide⟩
  | .object [], _ => ⟨'\x7b', _, rfl, rfl, by decide⟩
  | .object (_ :: _), _ => ⟨'\x7b', _, rfl, rfl, by decide⟩

theorem endsValue_itemsText (items : List Datum) (rest : List Char) :
    EndsValue (Datum.itemsText items ++ rest) := by
  intro c first
  cases items with
  | nil => exact .inr (.inl (Option.some.inj first).symm)
  | cons item items => exact .inl (Option.some.inj first).symm

theorem endsValue_membersText (members : List (String × Datum)) (rest : List Char) :
    EndsValue (Datum.membersText members ++ rest) := by
  intro c first
  cases members with
  | nil => exact .inr (.inr (Option.some.inj first).symm)
  | cons member members => exact .inl (Option.some.inj first).symm

/-- What starts like a numeral is scanned as a number. -/
theorem scanValue_numeral {c : Char} (numeral : c = '-' ∨ c.isDigit = true) (fuel : Nat)
    (rest : List Char) : scanValue (fuel + 1) (c :: rest) = scanNumber (c :: rest) := by
  obtain ⟨visible, -, quote, bracket, brace, notN, notT, notF⟩ := visible_of_numeral numeral
  rw [scanValue, skipBlanks_cons visible]
  simp only [quote, bracket, brace, notN, notT, notF, numeral, if_true, if_false]

theorem scanValue_ofInt_append {fuel : Nat} (n : Int) {rest : List Char} (ends : EndsValue rest)
    (enough : 3 * (Digits.ofInt n).length ≤ fuel) :
    scanValue fuel (Digits.ofInt n ++ rest) = (.number (.ofInt n), some rest) := by
  obtain ⟨c, others, digits, numeral⟩ := head_ofInt n
  have scanned : scanNumber (c :: (others ++ rest)) = (.number (.ofInt n), some rest) := by
    rw [← List.cons_append, ← digits, scanNumber, Numeral.scan_ofInt_append n ends]
  rw [digits, List.length_cons] at enough
  obtain ⟨f, rfl⟩ : ∃ f, fuel = f + 1 := ⟨fuel - 1, by omega⟩
  rw [digits, List.cons_append, scanValue_numeral numeral, scanned]

theorem scanValue_stringText_append {fuel : Nat} (s : String) (rest : List Char)
    (enough : 3 * (Datum.stringText s).length ≤ fuel) :
    scanValue fuel (Datum.stringText s ++ rest) = (.string (.ofString s), some rest) := by
  rw [Datum.stringText, List.cons_append, List.length_cons] at enough
  obtain ⟨f, rfl⟩ : ∃ f, fuel = f + 1 := ⟨fuel - 1, by omega⟩
  have scanned : Quoted.scan (s.toList.flatMap Datum.escaped ++ '"' :: rest)
      = (.ofString s, rest) := Quoted.scan_ofString_append s.toList rest
  rw [Datum.stringText, List.append_assoc, List.cons_append, List.singleton_append, scanValue,
    skipBlanks_cons rfl]
  simp only [if_true, scanned]
  rfl

/-- An array from an element on. -/
theorem scanItem_append {fuel : Nat} {item : Datum} {items : List Datum} {rest : List Char}
    (first : scanValue fuel (item.text ++ (Datum.itemsText items ++ rest))
      = (item.node, some (Datum.itemsText items ++ rest)))
    (others : scanItems fuel false (Datum.itemsText items ++ rest)
      = (Datum.itemNodes items, .closed, some rest)) :
    scanItem (fuel + 1) (item.text ++ (Datum.itemsText items ++ rest))
      = (item.node :: Datum.itemNodes items, .closed, some rest) := by
  rw [scanItem, first]
  simp only [others]

/-- An object from behind the quotation mark that opens the name of a member. -/
theorem scanMember_append {fuel : Nat} (name : String) {item : Datum}
    {members : List (String × Datum)} {rest : List Char}
    (first : scanValue fuel (item.text ++ (Datum.membersText members ++ rest))
      = (item.node, some (Datum.membersText members ++ rest)))
    (others : scanMembers fuel false (Datum.membersText members ++ rest)
      = (Datum.memberNodes members, .closed, some rest)) :
    scanMember (fuel + 1) (name.toList.flatMap Datum.escaped ++
        '"' :: ':' :: (item.text ++ (Datum.membersText members ++ rest)))
      = ((.ofString name, item.node) :: Datum.memberNodes members, .closed, some rest) := by
  have scanned := Quoted.scan_ofString_append name.toList
    (':' :: (item.text ++ (Datum.membersText members ++ rest)))
  rw [scanMember, scanned]
  simp only [skipBlanks_cons (c := ':') rfl, if_true, first, others]
  rfl

-- Three steps of fuel for each character are enough: an array or an object takes up to three steps
-- before its first element, and what it holds is shorter than it by its brackets.

mutual

/-- The text of a datum is scanned as its tree, whatever may stand behind a value follows. -/
theorem scanValue_text_append : ∀ (d : Datum) (fuel : Nat) (rest : List Char), d.Whole →
    EndsValue rest → 3 * d.text.length ≤ fuel →
      scanValue fuel (d.text ++ rest) = (d.node, some rest)
  | .null, fuel + 1, _, _, _, _ => rfl
  | .bool true, fuel + 1, _, _, _, _ => rfl
  | .bool false, fuel + 1, _, _, _, _ => rfl
  | .integer n, _, _, _, ends, enough => scanValue_ofInt_append n ends enough
  | .string s, _, rest, _, _, enough => scanValue_stringText_append s rest enough
  | .array [], fuel + 2, _, _, _, _ => rfl
  | .array (item :: items), fuel, rest, ⟨whole, wholes⟩, _, enough => by
      simp only [Datum.text, List.length_cons, List.length_append] at enough
      obtain ⟨f, rfl⟩ : ∃ f, fuel = f + 3 := ⟨fuel - 3, by omega⟩
      have first := scanValue_text_append item f _ whole (endsValue_itemsText items rest) (by omega)
      have others := scanItems_itemsText_append items f rest wholes (by omega)
      obtain ⟨c, more, start, visible, inside⟩ := (startsValue_text item whole).append
        (Datum.itemsText items ++ rest)
      have scanned := scanItem_append first others
      rw [start] at scanned
      rw [Datum.text, List.cons_append, List.append_assoc, start, scanValue, skipBlanks_cons rfl]
      simp only [if_true, if_false, scanItems, skipBlanks_cons visible, inside, scanned,
        show ('[' = '"') = False by decide]
      rfl
  | .object [], fuel + 2, _, _, _, _ => rfl
  | .object ((name, item) :: members), fuel, rest, ⟨whole, wholes⟩, _, enough => by
      simp only [Datum.text, Datum.stringText, List.length_cons, List.length_append] at enough
      obtain ⟨f, rfl⟩ : ∃ f, fuel = f + 3 := ⟨fuel - 3, by omega⟩
      have first := scanValue_text_append item f _ whole
        (endsValue_membersText members rest) (by omega)
      have others := scanMembers_membersText_append members f rest wholes (by omega)
      have scanned := scanMember_append name first others
      rw [Datum.text, Datum.stringText]
      simp only [List.cons_append, List.append_assoc, List.nil_append]
      rw [scanValue, skipBlanks_cons rfl]
      simp only [if_true, if_false, startsMembers, scanMembers, skipBlanks_cons (c := '"') rfl,
        scanned, show ('\x7b' = '"') = False by decide, show ('\x7b' = '[') = False by decide,
        show ('"' = '\x7d') = False by decide]
      rfl

/-- The text behind an element is scanned as the elements that it holds. -/
theorem scanItems_itemsText_append : ∀ (items : List Datum) (fuel : Nat) (rest : List Char),
    Datum.ItemsWhole items → 3 * (Datum.itemsText items).length ≤ fuel →
      scanItems fuel false (Datum.itemsText items ++ rest)
        = (Datum.itemNodes items, .closed, some rest)
  | [], fuel + 1, rest, _, enough => rfl
  | item :: items, fuel, rest, ⟨whole, wholes⟩, enough => by
      simp only [Datum.itemsText, List.length_cons, List.length_append] at enough
      obtain ⟨f, rfl⟩ : ∃ f, fuel = f + 2 := ⟨fuel - 2, by omega⟩
      have first := scanValue_text_append item f _ whole (endsValue_itemsText items rest) (by omega)
      have others := scanItems_itemsText_append items f rest wholes (by omega)
      obtain ⟨c, more, start, visible, inside⟩ := (startsValue_text item whole).append
        (Datum.itemsText items ++ rest)
      have scanned := scanItem_append first others
      rw [start] at scanned
      rw [Datum.itemsText, List.cons_append, List.append_assoc, start, scanItems,
        skipBlanks_cons rfl]
      simp only [if_true, if_false, skipBlanks_cons visible, inside, scanned,
        show (',' = ']') = False by decide, Bool.false_eq_true]
      rfl

/-- The text behind a member is scanned as the members that it holds. -/
theorem scanMembers_membersText_append : ∀ (members : List (String × Datum)) (fuel : Nat)
    (rest : List Char), Datum.MembersWhole members →
      3 * (Datum.membersText members).length ≤ fuel →
      scanMembers fuel false (Datum.membersText members ++ rest)
        = (Datum.memberNodes members, .closed, some rest)
  | [], fuel + 1, rest, _, enough => rfl
  | (name, item) :: members, fuel, rest, ⟨whole, wholes⟩, enough => by
      simp only [Datum.membersText, Datum.stringText, List.length_cons,
        List.length_append] at enough
      obtain ⟨f, rfl⟩ : ∃ f, fuel = f + 2 := ⟨fuel - 2, by omega⟩
      have first := scanValue_text_append item f _ whole
        (endsValue_membersText members rest) (by omega)
      have others := scanMembers_membersText_append members f rest wholes (by omega)
      have scanned := scanMember_append name first others
      rw [Datum.membersText, Datum.stringText]
      simp only [List.cons_append, List.append_assoc, List.nil_append]
      rw [scanMembers, skipBlanks_cons rfl]
      simp only [if_true, if_false, skipBlanks_cons (c := '"') rfl, scanned, Bool.false_eq_true,
        show (',' = '\x7d') = False by decide]
      rfl

end

/-- The compact text of a datum is a text of its own. -/
theorem ofText_text (d : Datum) (whole : d.Whole) : ofText d.text = (d.node, none) := by
  have ends : EndsValue [] := by
    intro c first
    contradiction
  have scanned := scanValue_text_append d (enoughFuel d.text) [] whole ends (Nat.le_add_right _ _)
  rw [List.append_nil] at scanned
  rw [ofText, scanned]
  rfl

end Node

end DocumentCommand.Json
