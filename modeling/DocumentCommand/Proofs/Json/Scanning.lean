import DocumentCommand.Json.Source
import DocumentCommand.Proofs.Json.CompactText
import DocumentCommand.Proofs.Json.Grammar
import DocumentCommand.Proofs.Reading.Record
import Mathlib.Data.List.TakeWhile

/-!
# Every JSON text is scanned

What is a value by the grammar is scanned into one tree wherever it stands in a text, and that tree
can be passed over (`Grammar.IsValue.isScanned`).  A text that is an object is scanned member by
member (`Grammar.Frame.ofText_text`), and readers of names see what the names say.
-/

namespace DocumentCommand.Json

open Grammar Reading

/-! ### Strings -/

namespace Quoted

theorem scan_short {e c : Char} (short : shortEscape? e = some c) (rest : List Char) :
    scan ('\\' :: e :: rest) = cons (.char c) (scan rest) := by
  unfold shortEscape? at short
  split at short <;> cases short <;> rfl

/-- A string that is written is scanned into its pieces. -/
theorem scan_written {pieces : List Piece} {text : List Char} (written : Written pieces text)
    (rest : List Char) : scan (text ++ '"' :: rest) = (⟨pieces, none⟩, rest) := by
  induction written with
  | nil => rfl
  | @plain c pieces text plain _ ih =>
      simp only [isPlain, Bool.and_eq_true, decide_eq_true_eq, bne_iff_ne] at plain
      obtain ⟨⟨visible, quote⟩, backslash⟩ := plain
      have high : ¬c.toNat < 0x20 := Nat.not_lt.2 visible
      rw [List.cons_append, scan.eq_6 _ _ (by simp [backslash]) (by simp [backslash])
        (by simp [backslash]) (by simp [backslash]), if_neg quote, if_neg high, ih]
      rfl
  | short escape _ ih =>
      rw [List.cons_append, List.cons_append, scan_short escape, ih]
      rfl
  | unit digits _ ih =>
      simp only [List.cons_append, scan, digits, ih]
      rfl

theorem obstacle?_written {pieces : List Piece} {text : List Char}
    (written : Written pieces text) : obstacle? ⟨pieces, none⟩ = none := by
  induction written with
  | nil => rfl
  | plain _ _ ih => exact ih
  | short _ _ ih => exact ih
  | unit _ _ ih => exact ih

/-- The characters of pieces are those that the grammar says they spell. -/
theorem characters_eq_ok_iff {pieces : List Piece} {chars : List Char} :
    characters none pieces = .ok chars ↔ Spells pieces chars := by
  constructor
  · intro read
    -- The cases are those in which the escapes of the string pair up or do not.
    fun_induction characters none pieces generalizing chars with
    | case1 =>
        cases read
        exact .nil
    | case3 c rest ih =>
        obtain ⟨others, inner, rfl⟩ := map_eq_ok_iff.1 read
        exact .char c (ih inner)
    | case5 n m rest lead trail ih =>
        obtain ⟨others, inner, rfl⟩ := map_eq_ok_iff.1 read
        exact .pair lead trail (ih inner)
    | case8 n m rest notLead notTrail ih =>
        obtain ⟨others, inner, rfl⟩ := map_eq_ok_iff.1 read
        exact .unit (Bool.eq_false_iff.2 notLead) (Bool.eq_false_iff.2 notTrail) (ih inner)
    | case11 n rest _ notTrail notLead ih =>
        obtain ⟨others, inner, rfl⟩ := map_eq_ok_iff.1 read
        exact .unit (Bool.eq_false_iff.2 notLead) (Bool.eq_false_iff.2 notTrail) (ih inner)
    | _ => cases read
  · intro spells
    induction spells with
    | nil => rfl
    | char c _ ih => rw [characters, ih]; rfl
    | unit notLead notTrail _ ih => rw [characters_whole_cons notLead notTrail, ih]; rfl
    | pair lead trail _ ih => rw [characters, if_pos lead, if_pos trail, ih]; rfl

end Quoted

/-! ### Numbers -/

/-- What may stand behind a value: a blank, a comma or a closing bracket. -/
def Delimits (rest : List Char) : Prop :=
  ∀ c ∈ rest.head?, Node.isBlank c = true ∨ c ∈ [',', ']', '\x7d']

/-- What may stand behind a value does not go on with a number. -/
theorem Delimits.noNumeral {rest : List Char} (ends : Delimits rest) :
    ∀ c ∈ rest.head?, c.isDigit = false ∧ c ∉ ['.', 'e', 'E'] := by
  intro c first
  have seven : c ∈ [' ', '\t', '\n', '\r', ',', ']', '\x7d'] := by
    simpa [Node.isBlank, or_assoc] using ends c first
  simp only [List.mem_cons, List.not_mem_nil, or_false] at seven
  rcases seven with rfl | rfl | rfl | rfl | rfl | rfl | rfl <;> decide

namespace Numeral

variable {text : List Char}

theorem scanWhole_append (isWhole : IsWhole text) {rest : List Char}
    (ends : ∀ c ∈ rest.head?, c.isDigit = false) : scanWhole (text ++ rest) = .ok (text, rest) := by
  obtain ⟨⟨nonempty, digits⟩, zero⟩ := isWhole
  have canonical : ¬(text.head? = some '0' ∧ text ≠ ['0']) :=
    fun leading => leading.2 (zero leading.1)
  simp only [scanWhole, Text.takeWhile_append digits ends,
    Text.dropWhile_append digits ends, nonempty, canonical, if_false]

theorem scanFraction_append (isFraction : IsFraction text) : ∃ digits, ∀ rest : List Char,
    (∀ c ∈ rest.head?, c.isDigit = false ∧ c ≠ '.') →
      scanFraction (text ++ rest) = .ok (digits, rest) := by
  cases isFraction with
  | absent =>
      refine ⟨[], fun rest ends => ?_⟩
      unfold scanFraction
      split
      · next point => exact absurd rfl (ends '.' (by rw [show rest = _ from point]; rfl)).2
      · rfl
  | @point digits isDigits =>
      refine ⟨digits, fun rest ends => ?_⟩
      have noDigit := fun c first => (ends c first).1
      simp only [List.cons_append, scanFraction, Text.takeWhile_append isDigits.2 noDigit,
        Text.dropWhile_append isDigits.2 noDigit, isDigits.1, if_false]

theorem scanExponent_append (isExponent : IsExponent text) : ∃ exponent, ∀ rest : List Char,
    Delimits rest → scanExponent (text ++ rest) = .ok (exponent, rest) := by
  cases isExponent with
  | absent =>
      refine ⟨none, fun rest ends => ?_⟩
      cases rest with
      | nil => rfl
      | cons c rest =>
          have other := (ends.noNumeral c rfl).2
          simp only [List.mem_cons, not_or] at other
          simp [scanExponent, other]
  | @unsigned mark digits isMark isDigits =>
      refine ⟨some (false, digits), fun rest ends => ?_⟩
      have noDigit := fun c first => (ends.noNumeral c first).1
      have takes := Text.takeWhile_append isDigits.2 noDigit
      have drops := Text.dropWhile_append isDigits.2 noDigit
      obtain ⟨d, more, rfl⟩ := List.exists_cons_of_ne_nil isDigits.1
      have digit := isDigits.2 d List.mem_cons_self
      have minus : d ≠ '-' := by rintro rfl; contradiction
      have plus : d ≠ '+' := by rintro rfl; contradiction
      rw [List.cons_append] at takes drops
      rcases isMark with rfl | rfl <;> simp [scanExponent, minus, plus, takes, drops]
  | @signed mark sign digits isMark isSign isDigits =>
      refine ⟨some (sign = '-', digits), fun rest ends => ?_⟩
      have noDigit := fun c first => (ends.noNumeral c first).1
      have takes := Text.takeWhile_append isDigits.2 noDigit
      have drops := Text.dropWhile_append isDigits.2 noDigit
      rcases isMark with rfl | rfl <;> rcases isSign with rfl | rfl <;>
        simp [scanExponent, takes, drops, isDigits.1]

/-- What follows a fraction is neither a digit nor a point. -/
theorem noPoint_exponent_append {exponent rest : List Char} (isExponent : IsExponent exponent)
    (ends : Delimits rest) :
    ∀ c ∈ (exponent ++ rest).head?, c.isDigit = false ∧ c ≠ '.' := by
  have mark {c : Char} (isMark : c = 'e' ∨ c = 'E') : c.isDigit = false ∧ c ≠ '.' := by
    rcases isMark with rfl | rfl <;> decide
  cases isExponent with
  | absent =>
      intro c first
      obtain ⟨noDigit, other⟩ := ends.noNumeral c first
      exact ⟨noDigit, fun point => other (point ▸ List.mem_cons_self)⟩
  | unsigned isMark _ => rintro _ ⟨⟩; exact mark isMark
  | signed isMark _ _ => rintro _ ⟨⟩; exact mark isMark

/-- What follows the digits before the point is no digit. -/
theorem noDigit_fraction_append {fraction exponent rest : List Char}
    (isFraction : IsFraction fraction) (isExponent : IsExponent exponent) (ends : Delimits rest) :
    ∀ c ∈ (fraction ++ (exponent ++ rest)).head?, c.isDigit = false := by
  cases isFraction with
  | absent => exact fun c first => (noPoint_exponent_append isExponent ends c first).1
  | point _ => rintro _ ⟨⟩; rfl

theorem scanUnsigned_append {whole fraction exponent : List Char} (isWhole : IsWhole whole)
    (isFraction : IsFraction fraction) (isExponent : IsExponent exponent) :
    ∃ digits power, ∀ rest : List Char, Delimits rest →
      scanWhole (whole ++ (fraction ++ (exponent ++ rest)))
        = .ok (whole, fraction ++ (exponent ++ rest)) ∧
      scanFraction (fraction ++ (exponent ++ rest)) = .ok (digits, exponent ++ rest) ∧
      scanExponent (exponent ++ rest) = .ok (power, rest) := by
  obtain ⟨digits, scanFraction⟩ := scanFraction_append isFraction
  obtain ⟨power, scanExponent⟩ := scanExponent_append isExponent
  refine ⟨digits, power, fun rest ends => ⟨?_, ?_, scanExponent rest ends⟩⟩
  · exact scanWhole_append isWhole (noDigit_fraction_append isFraction isExponent ends)
  · exact scanFraction _ (noPoint_exponent_append isExponent ends)

/-- A number is scanned up to its end. -/
theorem scan_append (isNumber : IsNumber text) : ∃ n, ∀ rest : List Char, Delimits rest →
    scan (text ++ rest) = .ok (n, rest) := by
  cases isNumber with
  | @unsigned whole fraction exponent isWhole isFraction isExponent =>
      obtain ⟨digits, power, scans⟩ := scanUnsigned_append isWhole isFraction isExponent
      refine ⟨⟨false, whole, digits, power⟩, fun rest ends => ?_⟩
      obtain ⟨first, second, third⟩ := scans rest ends
      have sign : scanSign (whole ++ (fraction ++ (exponent ++ rest)))
          = (false, whole ++ (fraction ++ (exponent ++ rest))) := by
        obtain ⟨d, more, rfl⟩ := List.exists_cons_of_ne_nil isWhole.1.1
        have minus : d ≠ '-' := by
          rintro rfl
          exact absurd (isWhole.1.2 '-' List.mem_cons_self) (by decide)
        simp [scanSign, minus]
      simp only [scan, List.append_assoc, sign, first, second, third, ok_bind, pure_eq_ok]
  | @negative whole fraction exponent isWhole isFraction isExponent =>
      obtain ⟨digits, power, scans⟩ := scanUnsigned_append isWhole isFraction isExponent
      refine ⟨⟨true, whole, digits, power⟩, fun rest ends => ?_⟩
      obtain ⟨first, second, third⟩ := scans rest ends
      simp only [scan, List.cons_append, List.append_assoc, scanSign, first, second, third, ok_bind,
        pure_eq_ok]

theorem head_isNumber (isNumber : IsNumber text) :
    ∃ c more, text = c :: more ∧ (c = '-' ∨ c.isDigit = true) := by
  cases isNumber with
  | unsigned isWhole _ _ =>
      obtain ⟨d, more, rfl⟩ := List.exists_cons_of_ne_nil isWhole.1.1
      exact ⟨d, _, rfl, .inr (isWhole.1.2 d List.mem_cons_self)⟩
  | negative _ _ _ => exact ⟨'-', _, rfl, .inl rfl⟩

end Numeral

/-! ### Values -/

/-- The text is scanned as the node wherever it stands in front of a delimiter.  Each character
takes at most three steps. -/
def Scans (text : List Char) (node : Node) : Prop :=
  ∀ (fuel : Nat) (rest : List Char), Delimits rest → 3 * text.length ≤ fuel →
    Node.scanValue fuel (text ++ rest) = (node, some rest)

theorem Scans.ofText {text : List Char} {node : Node} (scans : Scans text node) :
    Node.ofText text = (node, none) := by
  have ends : Delimits [] := by
    intro c first
    contradiction
  have scanned := scans (Node.enoughFuel text) [] ends (Nat.le_add_right _ _)
  rw [List.append_nil] at scanned
  rw [Node.ofText, scanned]
  rfl

namespace Grammar

/-- The tree of an element. -/
def Item.node (i : Item) : Node :=
  (Node.ofText i.value).1

/-- The name of a member as it is written. -/
def Member.quoted (m : Member) : Quoted :=
  (Quoted.scan (m.name ++ ['"'])).1

/-- A member as its object holds it. -/
def Member.entry (m : Member) : Quoted × Node :=
  (m.quoted, m.item.node)

theorem Member.quoted_eq {m : Member} {pieces : List Piece} (written : Written pieces m.name) :
    m.quoted = ⟨pieces, none⟩ :=
  congrArg Prod.fst (Quoted.scan_written written [])

theorem Member.Framed.scan {m : Member} (framed : m.Framed) (rest : List Char) :
    Quoted.scan (m.name ++ '"' :: rest) = (m.quoted, rest) := by
  obtain ⟨pieces, written⟩ := framed.name
  rw [Quoted.scan_written written, Member.quoted_eq written]

end Grammar

namespace Node

variable {blanks : List Char} (blank : IsBlank blanks)
include blank

theorem skipBlanks_append (text : List Char) : skipBlanks (blanks ++ text) = skipBlanks text :=
  List.dropWhile_append_of_pos blank

theorem scanValue_append (fuel : Nat) (text : List Char) :
    scanValue fuel (blanks ++ text) = scanValue fuel text := by
  cases fuel with
  | zero => rfl
  | succ fuel => rw [scanValue, scanValue, skipBlanks_append blank]

theorem scanItems_append (fuel : Nat) (first : Bool) (text : List Char) :
    scanItems fuel first (blanks ++ text) = scanItems fuel first text := by
  cases fuel with
  | zero => rfl
  | succ fuel => rw [scanItems, scanItems, skipBlanks_append blank]

theorem scanMembers_append (fuel : Nat) (first : Bool) (text : List Char) :
    scanMembers fuel first (blanks ++ text) = scanMembers fuel first text := by
  cases fuel with
  | zero => rfl
  | succ fuel => rw [scanMembers, scanMembers, skipBlanks_append blank]

theorem startsMembers_append (text : List Char) :
    startsMembers (blanks ++ text) = startsMembers text := by
  rw [startsMembers, startsMembers, skipBlanks_append blank]

theorem delimits_append {text : List Char} (ends : Delimits text) : Delimits (blanks ++ text) := by
  cases blanks with
  | nil => exact ends
  | cons c more =>
      rintro _ ⟨⟩
      exact .inl (blank c List.mem_cons_self)

omit blank

/-- The text from behind an element of an array, or a member of an object, to its end. -/
def tailText (parts : List (List Char)) (close : Char) : List Char :=
  parts.flatMap (',' :: ·) ++ [close]

@[simp] theorem tailText_nil (close : Char) : tailText [] close = [close] := rfl

@[simp] theorem tailText_cons (part : List Char) (parts : List (List Char)) (close : Char) :
    tailText (part :: parts) close = ',' :: (part ++ tailText parts close) := by
  simp [tailText]

theorem intercalate_append (part : List Char) (parts : List (List Char)) (close : Char) :
    [','].intercalate (part :: parts) ++ [close] = part ++ tailText parts close := by
  induction parts generalizing part with
  | nil => simp
  | cons next parts ih =>
      rw [List.intercalate_cons_cons, List.append_assoc, List.append_assoc, ih next, tailText_cons]
      rfl

theorem delimits_tailText (parts : List (List Char)) (close : Char)
    (closes : close ∈ [',', ']', '\x7d']) (rest : List Char) :
    Delimits (tailText parts close ++ rest) := by
  cases parts with
  | nil => rintro _ ⟨⟩; exact .inr closes
  | cons part parts => rintro _ ⟨⟩; exact .inr (by decide)

end Node

/-! ### Arrays -/

namespace Grammar

open Node

/-- An element that is scanned as its tree. -/
structure Item.Scanned (i : Item) : Prop extends i.Framed where
  starts : StartsValue i.value
  scans : Scans i.value i.node

/-- The blanks before an element are skipped, and its value is seen. -/
theorem Item.Scanned.skipBlanks {i : Item} (scanned : i.Scanned) (rest : List Char) :
    ∃ c more, Node.skipBlanks (i.text ++ rest) = c :: more ∧ c ≠ ']' ∧
      c :: more = i.value ++ (i.after ++ rest) := by
  obtain ⟨c, more, start, visible, inside⟩ := scanned.starts.append (i.after ++ rest)
  refine ⟨c, more, ?_, inside, start.symm⟩
  rw [Item.text, List.append_assoc, List.append_assoc, skipBlanks_append scanned.before, start,
    skipBlanks_cons visible]

/-- An array from an element on. -/
theorem Item.Scanned.scanItem {i : Item} (scanned : i.Scanned) {parts : List (List Char)}
    {nodes : List Node} {fuel : Nat} {rest : List Char} (enough : 3 * i.value.length ≤ fuel)
    (others : scanItems fuel false (tailText parts ']' ++ rest) = (nodes, .closed, some rest)) :
    Node.scanItem (fuel + 1) (i.value ++ (i.after ++ (tailText parts ']' ++ rest)))
      = (i.node :: nodes, .closed, some rest) := by
  have ends := delimits_append scanned.after
    (delimits_tailText parts ']' (by decide) rest)
  rw [Node.scanItem, scanned.scans fuel _ ends enough]
  simp only [scanItems_append scanned.after, others]

/-- The text behind an element is scanned as the elements that it holds. -/
theorem scanItems_tailText {items : List Item} (scanned : ∀ i ∈ items, i.Scanned) (fuel : Nat)
    (rest : List Char) (enough : 3 * (tailText (items.map Item.text) ']').length ≤ fuel) :
    scanItems fuel false (tailText (items.map Item.text) ']' ++ rest)
      = (items.map Item.node, .closed, some rest) := by
  induction items generalizing fuel with
  | nil =>
      obtain ⟨f, rfl⟩ : ∃ f, fuel = f + 1 := ⟨fuel - 1, by simp at enough; omega⟩
      rfl
  | cons i items ih =>
      obtain ⟨first, later⟩ := List.forall_mem_cons.1 scanned
      simp only [List.map_cons, tailText_cons, List.length_cons, List.length_append, Item.text]
        at enough
      obtain ⟨f, rfl⟩ : ∃ f, fuel = f + 2 := ⟨fuel - 2, by omega⟩
      have others := ih later f (by omega)
      have whole := first.scanItem (by omega) others
      obtain ⟨c, more, seen, inside, start⟩ :=
        first.skipBlanks (tailText (items.map Item.text) ']' ++ rest)
      rw [← start] at whole
      rw [List.map_cons, tailText_cons, List.cons_append, List.append_assoc, scanItems,
        skipBlanks_cons rfl]
      simp only [if_false, if_true, seen, inside, whole, show (',' = ']') = False by decide,
        Bool.false_eq_true, List.map_cons]

/-- The text behind the opening bracket of an array is scanned as its elements. -/
theorem scanItems_intercalate {items : List Item} (scanned : ∀ i ∈ items, i.Scanned) (fuel : Nat)
    (rest : List Char)
    (enough : 3 * ([','].intercalate (items.map Item.text) ++ [']']).length + 2 ≤ fuel) :
    scanItems fuel true ([','].intercalate (items.map Item.text) ++ [']'] ++ rest)
      = (items.map Item.node, .closed, some rest) := by
  cases items with
  | nil =>
      obtain ⟨f, rfl⟩ : ∃ f, fuel = f + 1 := ⟨fuel - 1, by omega⟩
      rfl
  | cons i items =>
      obtain ⟨first, later⟩ := List.forall_mem_cons.1 scanned
      rw [List.map_cons, intercalate_append] at enough ⊢
      simp only [List.length_append, Item.text] at enough
      obtain ⟨f, rfl⟩ : ∃ f, fuel = f + 2 := ⟨fuel - 2, by omega⟩
      have others := scanItems_tailText later f rest (by omega)
      have whole := first.scanItem (by omega) others
      obtain ⟨c, more, seen, inside, start⟩ :=
        first.skipBlanks (tailText (items.map Item.text) ']' ++ rest)
      rw [← start] at whole
      rw [List.append_assoc, scanItems]
      simp only [if_false, if_true, seen, inside, whole, List.map_cons]

theorem scans_arrayText {gap : List Char} {items : List Item} (blank : IsBlank gap)
    (scanned : ∀ i ∈ items, i.Scanned) :
    Scans (arrayText gap items) (.array (items.map Item.node) .closed) := by
  intro fuel rest _ enough
  rw [arrayText, List.length_cons, List.length_append] at enough
  obtain ⟨f, rfl⟩ : ∃ f, fuel = f + 1 := ⟨fuel - 1, by omega⟩
  have whole := scanItems_intercalate scanned f rest (by omega)
  rw [arrayText, List.cons_append, List.append_assoc, scanValue, skipBlanks_cons rfl]
  simp only [if_false, if_true, show ('[' = '"') = False by decide, scanItems_append blank, whole]

/-! ### Objects -/

/-- A member whose value is scanned as its tree. -/
structure Member.Scanned (m : Member) : Prop extends m.Framed where
  scans : Scans m.item.value m.item.node

theorem Member.text_append (m : Member) (rest : List Char) :
    m.text ++ rest
      = m.before ++ '"' :: (m.name ++ '"' :: (m.afterName ++ ':' :: (m.item.text ++ rest))) := by
  simp [Member.text]

/-- An object from behind the quotation mark that opens the name of a member. -/
theorem Member.Scanned.scanMember {m : Member} (scanned : m.Scanned) {parts : List (List Char)}
    {entries : List (Quoted × Node)} {fuel : Nat} {rest : List Char}
    (enough : 3 * m.item.value.length ≤ fuel)
    (others : scanMembers fuel false (tailText parts '\x7d' ++ rest)
      = (entries, .closed, some rest)) :
    Node.scanMember (fuel + 1) (m.name ++ '"' :: (m.afterName ++ ':' ::
        (m.item.text ++ (tailText parts '\x7d' ++ rest))))
      = (m.entry :: entries, .closed, some rest) := by
  have ends := delimits_append scanned.item.after
    (delimits_tailText parts '\x7d' (by decide) rest)
  have value : scanValue fuel (m.item.text ++ (tailText parts '\x7d' ++ rest))
      = (m.item.node, some (m.item.after ++ (tailText parts '\x7d' ++ rest))) := by
    rw [Item.text, List.append_assoc, List.append_assoc, scanValue_append scanned.item.before,
      scanned.scans fuel _ ends enough]
  rw [Node.scanMember, scanned.scan]
  simp only [Node.skipBlanks_append scanned.afterName, skipBlanks_cons (c := ':') rfl, if_true,
    value, scanMembers_append scanned.item.after, others]
  rfl

/-- The text behind a member is scanned as the members that it holds. -/
theorem scanMembers_tailText {members : List Member} (scanned : ∀ m ∈ members, m.Scanned)
    (fuel : Nat) (rest : List Char)
    (enough : 3 * (tailText (members.map Member.text) '\x7d').length ≤ fuel) :
    scanMembers fuel false (tailText (members.map Member.text) '\x7d' ++ rest)
      = (members.map Member.entry, .closed, some rest) := by
  induction members generalizing fuel with
  | nil =>
      obtain ⟨f, rfl⟩ : ∃ f, fuel = f + 1 := ⟨fuel - 1, by simp at enough; omega⟩
      rfl
  | cons m members ih =>
      obtain ⟨first, later⟩ := List.forall_mem_cons.1 scanned
      simp only [List.map_cons, tailText_cons, List.length_cons, List.length_append, Member.text,
        Item.text] at enough
      obtain ⟨f, rfl⟩ : ∃ f, fuel = f + 2 := ⟨fuel - 2, by omega⟩
      have others := ih later f (by omega)
      have whole := first.scanMember (by omega) others
      rw [List.map_cons, tailText_cons, List.cons_append, List.append_assoc, Member.text_append,
        scanMembers, skipBlanks_cons rfl]
      simp only [if_false, if_true, Node.skipBlanks_append first.before,
        skipBlanks_cons (c := '"') rfl, whole, show (',' = '\x7d') = False by decide,
        Bool.false_eq_true, List.map_cons]

/-- The text behind the opening brace of an object is scanned as its members. -/
theorem scanMembers_intercalate {members : List Member} (scanned : ∀ m ∈ members, m.Scanned)
    (fuel : Nat) (rest : List Char)
    (enough : 3 * ([','].intercalate (members.map Member.text) ++ ['\x7d']).length + 2 ≤ fuel) :
    scanMembers fuel true ([','].intercalate (members.map Member.text) ++ ['\x7d'] ++ rest)
      = (members.map Member.entry, .closed, some rest) := by
  cases members with
  | nil =>
      obtain ⟨f, rfl⟩ : ∃ f, fuel = f + 1 := ⟨fuel - 1, by omega⟩
      rfl
  | cons m members =>
      obtain ⟨first, later⟩ := List.forall_mem_cons.1 scanned
      rw [List.map_cons, intercalate_append] at enough ⊢
      simp only [List.length_append, List.length_cons, Member.text, Item.text] at enough
      obtain ⟨f, rfl⟩ : ∃ f, fuel = f + 2 := ⟨fuel - 2, by omega⟩
      have others := scanMembers_tailText later f rest (by omega)
      have whole := first.scanMember (by omega) others
      rw [List.append_assoc, Member.text_append, scanMembers, Node.skipBlanks_append first.before,
        skipBlanks_cons rfl]
      simp only [if_false, if_true, whole, show ('"' = '\x7d') = False by decide, List.map_cons]

/-- What stands behind an opening brace starts with a name or closes the object. -/
theorem startsMembers_intercalate {members : List Member} (framed : ∀ m ∈ members, m.Framed)
    (rest : List Char) :
    startsMembers ([','].intercalate (members.map Member.text) ++ ['\x7d'] ++ rest) = true := by
  cases members with
  | nil => rfl
  | cons m members =>
      have first := (framed m List.mem_cons_self).before
      rw [List.map_cons, intercalate_append, List.append_assoc, Member.text_append,
        startsMembers_append first]
      rfl

theorem scans_objectText {gap : List Char} {members : List Member} (blank : IsBlank gap)
    (scanned : ∀ m ∈ members, m.Scanned) :
    Scans (objectText gap members) (.object (members.map Member.entry) .closed) := by
  intro fuel rest _ enough
  rw [objectText, List.length_cons, List.length_append] at enough
  obtain ⟨f, rfl⟩ : ∃ f, fuel = f + 1 := ⟨fuel - 1, by omega⟩
  have whole := scanMembers_intercalate scanned f rest (by omega)
  have starts := startsMembers_intercalate (fun m member => (scanned m member).toFramed) rest
  rw [objectText, List.cons_append, List.append_assoc, scanValue, skipBlanks_cons rfl]
  simp only [if_false, if_true, show ('\x7b' = '"') = False by decide,
    show ('\x7b' = '[') = False by decide, startsMembers_append blank, starts,
    scanMembers_append blank, whole]

/-! ### The whole grammar -/

theorem startsValue_of_isValue {text : List Char} (value : IsValue text) : StartsValue text := by
  cases value with
  | word isWord =>
      simp only [List.mem_cons, List.not_mem_nil, or_false] at isWord
      rcases isWord with rfl | rfl | rfl
      · exact ⟨'n', _, rfl, rfl, by decide⟩
      · exact ⟨'t', _, rfl, rfl, by decide⟩
      · exact ⟨'f', _, rfl, rfl, by decide⟩
  | string _ => exact ⟨'"', _, rfl, rfl, by decide⟩
  | array _ _ _ => exact ⟨'[', _, rfl, rfl, by decide⟩
  | object _ _ _ => exact ⟨'\x7b', _, rfl, rfl, by decide⟩
  | number isNumber =>
      obtain ⟨c, more, rfl, numeral⟩ := Numeral.head_isNumber isNumber
      obtain ⟨visible, inside, -⟩ := visible_of_numeral numeral
      exact ⟨c, more, rfl, visible, inside⟩

theorem scans_word {text : List Char}
    (isWord : text ∈ ["null".toList, "true".toList, "false".toList]) :
    ∃ node, Scans text node ∧ node.skip = .ok () := by
  -- One step is enough for a word, and no word is empty.
  have step : ∃ node, (∀ fuel rest, scanValue (fuel + 1) (text ++ rest) = (node, some rest)) ∧
      node.skip = .ok () := by
    simp only [List.mem_cons, List.not_mem_nil, or_false] at isWord
    rcases isWord with rfl | rfl | rfl
    · exact ⟨.null, fun _ _ => rfl, rfl⟩
    · exact ⟨.bool true, fun _ _ => rfl, rfl⟩
    · exact ⟨.bool false, fun _ _ => rfl, rfl⟩
  have nonempty : ∀ word ∈ ["null".toList, "true".toList, "false".toList], 0 < word.length := by
    decide
  obtain ⟨node, scan, skips⟩ := step
  refine ⟨node, fun fuel rest _ enough => ?_, skips⟩
  have positive := nonempty text isWord
  obtain ⟨f, rfl⟩ : ∃ f, fuel = f + 1 := ⟨fuel - 1, by omega⟩
  exact scan f rest

theorem scans_number {text : List Char} (isNumber : IsNumber text) :
    ∃ n, Scans text (.number n) := by
  obtain ⟨n, scan⟩ := Numeral.scan_append isNumber
  refine ⟨n, fun fuel rest ends enough => ?_⟩
  have scanned := scan rest ends
  obtain ⟨c, more, rfl, numeral⟩ := Numeral.head_isNumber isNumber
  rw [List.length_cons] at enough
  obtain ⟨f, rfl⟩ : ∃ f, fuel = f + 1 := ⟨fuel - 1, by omega⟩
  rw [List.cons_append] at scanned ⊢
  rw [scanValue_numeral numeral, scanNumber, scanned]

theorem scans_string {inside : List Char} {pieces : List Piece} (written : Written pieces inside) :
    Scans ('"' :: (inside ++ ['"'])) (.string ⟨pieces, none⟩) := by
  intro fuel rest _ enough
  rw [List.length_cons] at enough
  obtain ⟨f, rfl⟩ : ∃ f, fuel = f + 1 := ⟨fuel - 1, by omega⟩
  have scanned := Quoted.scan_written written rest
  rw [List.cons_append, List.append_assoc, List.singleton_append, scanValue, skipBlanks_cons rfl]
  simp only [if_true, scanned]
  rfl

theorem skipItems_eq_ok {nodes : List Node} (skips : ∀ n ∈ nodes, n.skip = .ok ()) :
    skipItems nodes = .ok () := by
  induction nodes with
  | nil => rfl
  | cons n nodes ih =>
      obtain ⟨first, later⟩ := List.forall_mem_cons.1 skips
      rw [skipItems, first, ok_bind, ih later]

theorem skipMembers_eq_ok {entries : List (Quoted × Node)}
    (skips : ∀ e ∈ entries, e.1.obstacle? = none ∧ e.2.skip = .ok ()) :
    skipMembers entries = .ok () := by
  induction entries with
  | nil => rfl
  | cons e entries ih =>
      obtain ⟨⟨name, value⟩, later⟩ := List.forall_mem_cons.1 skips
      simp only [skipMembers, name, value, ok_bind, ih later]

/-- The text is scanned as a tree that can be passed over. -/
structure IsScanned (text : List Char) : Prop where
  scans : Scans text (Node.ofText text).1
  skips : (Node.ofText text).1.skip = .ok ()

theorem IsScanned.of_scans {text : List Char} {node : Node} (scans : Scans text node)
    (skips : node.skip = .ok ()) : IsScanned text := by
  constructor <;> rw [scans.ofText] <;> assumption

/-- Every value of the grammar is scanned, and can be passed over. -/
theorem IsValue.isScanned {text : List Char} (value : IsValue text) : IsScanned text := by
  induction value with
  | word isWord =>
      obtain ⟨node, scans, skips⟩ := scans_word isWord
      exact .of_scans scans skips
  | number isNumber =>
      obtain ⟨n, scans⟩ := scans_number isNumber
      exact .of_scans scans rfl
  | string inside =>
      obtain ⟨pieces, written⟩ := inside
      refine .of_scans (scans_string written) ?_
      rw [Node.skip, Quoted.obstacle?_written written]
  | @array gap items blank framed isValue each =>
      have scanned : ∀ i ∈ items, i.Scanned := fun i member =>
        ⟨framed i member, startsValue_of_isValue (isValue i member), (each i member).scans⟩
      refine .of_scans (scans_arrayText blank scanned) ?_
      have skips : skipItems (items.map Item.node) = .ok () :=
        skipItems_eq_ok (List.forall_mem_map.2 fun i member => (each i member).skips)
      rw [Node.skip, skips]
      rfl
  | @object gap members blank framed isValue each =>
      have scanned : ∀ m ∈ members, m.Scanned := fun m member =>
        ⟨framed m member, (each m member).scans⟩
      refine .of_scans (scans_objectText blank scanned) ?_
      have skips : skipMembers (members.map Member.entry) = .ok () := by
        refine skipMembers_eq_ok (List.forall_mem_map.2 fun m member => ⟨?_, (each m member).skips⟩)
        obtain ⟨pieces, written⟩ := (framed m member).name
        rw [Member.entry, Member.quoted_eq written, Quoted.obstacle?_written written]
      rw [Node.skip, skips]
      rfl

theorem Item.Framed.scanned {i : Item} (framed : i.Framed) (value : IsValue i.value) : i.Scanned :=
  ⟨framed, startsValue_of_isValue value, value.isScanned.scans⟩

theorem Member.WellFormed.scanned {m : Member} (wellFormed : m.WellFormed) : m.Scanned :=
  ⟨wellFormed.toFramed, wellFormed.value.isScanned.scans⟩

/-- A value between blanks is a text of its own. -/
theorem Item.ofText_text {i : Item} (framed : i.Framed) (scanned : IsScanned i.value) :
    Node.ofText i.text = (i.node, none) := by
  have ends : Delimits i.after := by
    have nothing : Delimits [] := by
      intro c first
      contradiction
    simpa using delimits_append framed.after nothing
  have value := scanned.scans (Node.enoughFuel i.text) i.after ends
    (by simp [Node.enoughFuel, Item.text]; omega)
  have behind : Node.skipBlanks i.after = [] := List.dropWhile_eq_nil_iff.2 framed.after
  rw [Node.ofText, Item.text, scanValue_append framed.before, ← Item.text, value]
  simp only [behind, if_true, Item.node]

/-- An object between blanks is a text of its own. -/
theorem Frame.ofText_text (t : Frame) {members : List Member}
    (wellFormed : ∀ m ∈ members, m.WellFormed) :
    Node.ofText (t.text members) = (.object (members.map Member.entry) .closed, none) := by
  have object : IsValue (objectText t.gap members) :=
    .object t.blankGap (fun m member => (wellFormed m member).toFramed)
      fun m member => (wellFormed m member).value
  have scanned := scans_objectText t.blankGap fun m member => (wellFormed m member).scanned
  have whole := Item.ofText_text (i := ⟨t.before, objectText t.gap members, t.after⟩)
    ⟨t.blankBefore, t.blankAfter⟩ object.isScanned
  rw [Item.node, scanned.ofText] at whole
  exact whole

/-- Pieces are read as the text that they spell. -/
theorem textOf_eq_ok_iff {pieces : List Piece} {s : String} :
    textOf ⟨pieces, none⟩ = .ok s ↔ Spells pieces s.toList := by
  rw [← Quoted.characters_eq_ok_iff, textOf, Quoted.content]
  cases Quoted.characters none pieces with
  | ok chars => simp [String.ext_iff]
  | error f => simp [fault, Functor.map, Except.map]

/-- A reader of a name sees what the name says. -/
theorem Member.Framed.textOf_eq_ok_iff {m : Member} (framed : m.Framed) {s : String} :
    textOf m.quoted = .ok s ↔ Says m.name s := by
  constructor
  · intro read
    obtain ⟨pieces, written⟩ := framed.name
    rw [Member.quoted_eq written] at read
    exact ⟨pieces, written, Grammar.textOf_eq_ok_iff.1 read⟩
  · rintro ⟨pieces, written, spells⟩
    rw [Member.quoted_eq written]
    exact Grammar.textOf_eq_ok_iff.2 spells

end Grammar

end DocumentCommand.Json
