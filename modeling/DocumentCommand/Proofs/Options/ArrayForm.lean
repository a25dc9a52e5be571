import DocumentCommand.Proofs.Options.ObjectMembers
import DocumentCommand.Proofs.Reading.Positions
import Mathlib.Data.List.Forall2

/-!
# Options written as arrays

A record may be written as an object that gives values to its fields in order, or as an array of
the values alone (`RecordForm`).  Options and the collation within them are read alike in either
form, faults included, whichever forms are mixed (`UpdateOptions.ofJson_recordForm`).  An array with
more elements than there are fields is refused.
-/

namespace DocumentCommand

open Reading
open Json (Cursor Ending Node)
open Json.Grammar

namespace Json.Grammar

/-- The values that write a record, as many of its fields as there are values: an array of them, or
an object that gives them to the fields in order. -/
inductive RecordForm (names : List String) (values : List (List Char)) : List Char → Prop where
  | array {gap : List Char} {items : List Item} : IsBlank gap → (∀ i ∈ items, i.Framed) →
      items.map Item.value = values → RecordForm names values (arrayText gap items)
  | object {gap : List Char} {members : List Member} {said : List String} : IsBlank gap →
      (∀ m ∈ members, m.Framed) → (members.map fun m => m.item.value) = values →
      List.Forall₂ (fun m name => Says m.name name) members said → said <+: names →
      RecordForm names values (objectText gap members)

/-- Two texts that write the same record, each in one of the two forms. -/
def SameRecord (names : List String) (text text' : List Char) : Prop :=
  ∃ values, (∀ v ∈ values, IsValue v) ∧ RecordForm names values text ∧
    RecordForm names values text'

/-- An array of more than nine values. -/
def IsSurplus (text : List Char) : Prop :=
  ∃ gap items, IsBlank gap ∧ (∀ i ∈ items, i.Framed) ∧ (∀ i ∈ items, IsValue i.value) ∧
    9 < items.length ∧ text = arrayText gap items

theorem IsSurplus.isValue {text : List Char} (surplus : IsSurplus text) : IsValue text := by
  obtain ⟨gap, items, blank, framed, isValue, -, rfl⟩ := surplus
  exact .array blank framed isValue

/-- The text as a place in a text with this much room. -/
def cursor (room : Nat) (text : List Char) : Cursor :=
  ⟨room, (Node.ofText text).1⟩

theorem cursor_arrayText {gap : List Char} {items : List Item} (blank : IsBlank gap)
    (framed : ∀ i ∈ items, i.Framed) (isValue : ∀ i ∈ items, IsValue i.value) (room : Nat) :
    cursor room (arrayText gap items) = ⟨room, .array (items.map Item.node) .closed⟩ := by
  have scanned : ∀ i ∈ items, i.Scanned := fun i member =>
    (framed i member).scanned (isValue i member)
  rw [cursor, (scans_arrayText blank scanned).ofText]

theorem cursor_objectText {gap : List Char} {members : List Member} (blank : IsBlank gap)
    (wellFormed : ∀ m ∈ members, m.WellFormed) (room : Nat) :
    cursor room (objectText gap members) = ⟨room, .object (members.map Member.entry) .closed⟩ := by
  have scanned : ∀ m ∈ members, m.Scanned := fun m member => (wellFormed m member).scanned
  rw [cursor, (scans_objectText blank scanned).ofText]

/-- An array is read as a record by position. -/
theorem record_arrayText {gap : List Char} {items : List Item} (blank : IsBlank gap)
    (framed : ∀ i ∈ items, i.Framed) (isValue : ∀ i ∈ items, IsValue i.value) (wanted : Wanted)
    (room : Nat) :
    format.record wanted (cursor (room + 1) (arrayText gap items))
      = .ok (.positional ⟨(items.map Item.value).map (cursor room), Ending.closed.toReading⟩) := by
  rw [cursor_arrayText blank framed isValue]
  simp [format, Cursor.source, Cursor.record, descend, cursor, Item.node]

theorem IsSurplus.exists_recordForm {text : List Char} (surplus : IsSurplus text)
    (names : List String) :
    ∃ values, (∀ v ∈ values, IsValue v) ∧ 9 < values.length ∧ RecordForm names values text := by
  obtain ⟨gap, items, blank, framed, isValue, long, rfl⟩ := surplus
  exact ⟨_, List.forall_mem_map.2 isValue, by rwa [List.length_map], .array blank framed rfl⟩

/-- Members that give values to fields in order are read as the values under the names of the
fields. -/
theorem reading_eq_underNames {φ : Type} {F : Fields φ} {fields : List φ} {members : List Member}
    {said : List String} (framed : ∀ m ∈ members, m.Framed)
    (named : List.Forall₂ (fun m name => Says m.name name) members said)
    (inOrder : said <+: fields.map F.name) (room : Nat) :
    members.map (Member.reading room)
      = F.underNames fields (members.map fun m => cursor room m.item.value) := by
  induction named generalizing fields with
  | nil => rw [List.map_nil, List.map_nil, Fields.underNames, List.zipWith_nil_right]
  | @cons m name members said first _ ih =>
      cases fields with
      | nil => cases List.prefix_nil.1 inOrder
      | cons f fields =>
          obtain ⟨rfl, later⟩ := List.cons_prefix_cons.1 inOrder
          obtain ⟨isFramed, framed⟩ := List.forall_mem_cons.1 framed
          rw [List.map_cons, ih framed later, reading_of_says isFramed first]
          rfl

namespace RecordForm

variable {names : List String} {values : List (List Char)} {text : List Char}
  (isValue : ∀ v ∈ values, IsValue v)
include isValue

theorem isValue_text (form : RecordForm names values text) : IsValue text := by
  cases form with
  | array blank framed same =>
      subst same
      exact .array blank framed (List.forall_mem_map.1 isValue)
  | object blank framed same _ _ =>
      subst same
      exact .object blank framed (List.forall_mem_map.1 isValue)

/-- Neither an array nor an object is null. -/
theorem isNull_cursor (form : RecordForm names values text) (room : Nat) :
    format.isNull (cursor room text) = .ok false := by
  cases form with
  | array blank framed same =>
      subst same
      rw [cursor_arrayText blank framed (List.forall_mem_map.1 isValue)]
      rfl
  | object blank framed same _ _ =>
      subst same
      rw [cursor_objectText blank fun m member =>
        ⟨framed m member, List.forall_mem_map.1 isValue m member⟩]
      rfl

/-- Either form is read as its values by position. -/
theorem readRecord_cursor {φ σ : Type} [DecidableEq φ] {F : Fields φ}
    (read : φ → Cursor → Except Problem σ) (unknown : String → Cursor → Except Problem Unit)
    (known : ∀ f ∈ F.order, F.find? (F.name f) = some f) (distinct : F.order.Nodup)
    (form : RecordForm (F.order.map F.name) values text) (wanted : Wanted) (room : Nat) :
    ∃ record, format.record wanted (cursor (room + 1) text) = .ok record ∧
      F.readRecord read unknown record
        = Fields.readPositional read Ending.closed.toReading F.order
          (values.map (cursor room)) := by
  cases form with
  | array blank framed same =>
      subst same
      exact ⟨_, record_arrayText blank framed (List.forall_mem_map.1 isValue) wanted room, rfl⟩
  | @object gap members said blank framed same named inOrder =>
      subst same
      have wellFormed : ∀ m ∈ members, m.WellFormed := fun m member =>
        ⟨framed m member, List.forall_mem_map.1 isValue m member⟩
      have short : members.length ≤ F.order.length := by
        rw [named.length_eq, ← List.length_map F.name]
        exact inOrder.length_le
      refine ⟨_, by rw [cursor_objectText blank wellFormed, record_object], ?_⟩
      rw [Fields.readRecord, reading_eq_underNames framed named inOrder, List.map_map]
      exact Fields.readNamed_eq_readPositional rfl rfl known distinct
        (fun f _ => List.not_mem_nil) (by rwa [List.length_map])

end RecordForm

theorem SameRecord.isValue {names : List String} {text text' : List Char}
    (same : SameRecord names text text') : IsValue text ∧ IsValue text' := by
  obtain ⟨values, isValue, form, form'⟩ := same
  exact ⟨form.isValue_text isValue, form'.isValue_text isValue⟩

/-- A value without blanks around it. -/
def Item.compact (value : List Char) : Item :=
  ⟨[], value, []⟩

theorem Item.framed_compact (value : List Char) : (Item.compact value).Framed :=
  ⟨List.forall_mem_nil _, List.forall_mem_nil _⟩

/-- Values as an array without blanks. -/
def compactArray (values : List (List Char)) : List Char :=
  arrayText [] (values.map Item.compact)

/-- Members without blanks that give values to names. -/
def compactMembers (names : List String) (values : List (List Char)) : List Member :=
  List.zipWith (fun name v => .compact name.toList v) names values

/-- A name in which nothing has to be escaped, and its value. -/
theorem compact_named {name : String} (plain : name.toList.all isPlain = true) (v : List Char) :
    (Member.compact name.toList v).Framed ∧ Says (Member.compact name.toList v).name name := by
  have named := says_ofList plain
  rw [String.ofList_toList] at named
  refine ⟨⟨?_, named.isInside, ?_, ?_, ?_⟩, named⟩ <;> exact List.forall_mem_nil _

theorem compactMembers_named {names : List String} {values : List (List Char)}
    (plain : ∀ name ∈ names, name.toList.all isPlain = true)
    (short : values.length ≤ names.length) :
    (∀ m ∈ compactMembers names values, m.Framed) ∧
    ((compactMembers names values).map fun m => m.item.value) = values ∧
    List.Forall₂ (fun m name => Says m.name name) (compactMembers names values)
      (names.take values.length) := by
  induction values generalizing names with
  | nil =>
      rw [compactMembers, List.zipWith_nil_right]
      exact ⟨List.forall_mem_nil _, rfl, .nil⟩
  | cons v values ih =>
      obtain ⟨name, names, rfl⟩ := List.exists_cons_of_length_pos (Nat.zero_lt_of_lt short)
      obtain ⟨isPlain, plain⟩ := List.forall_mem_cons.1 plain
      obtain ⟨isFramed, named⟩ := compact_named isPlain v
      obtain ⟨framed, same, others⟩ := ih plain (Nat.le_of_succ_le_succ short)
      refine ⟨List.forall_mem_cons.2 ⟨isFramed, framed⟩, ?_, .cons named others⟩
      exact congrArg (v :: ·) same

/-- Values under names as an object without blanks. -/
def compactObject (names : List String) (values : List (List Char)) : List Char :=
  objectText [] (compactMembers names values)

/-- Every list of values is written as an array. -/
theorem recordForm_compactArray (names : List String) (values : List (List Char)) :
    RecordForm names values (compactArray values) := by
  refine .array (List.forall_mem_nil _) ?_ ?_
  · exact List.forall_mem_map.2 fun v _ => Item.framed_compact v
  · rw [List.map_map]
    exact List.map_id values

/-- Every list of values that is not too long is written as an object. -/
theorem recordForm_compactObject {names : List String} {values : List (List Char)}
    (plain : ∀ name ∈ names, name.toList.all isPlain = true)
    (short : values.length ≤ names.length) :
    RecordForm names values (compactObject names values) := by
  obtain ⟨framed, same, named⟩ := compactMembers_named plain short
  exact .object (List.forall_mem_nil _) framed same named (List.take_prefix _ _)

end Json.Grammar

/-! ### Options and collations in either form -/

namespace Format

section Values

variable {values : List (List Char)} {text : List Char} (isValue : ∀ v ∈ values, IsValue v)
include isValue

/-- Options in either form are read as their values by position. -/
theorem updateOptions_recordForm (form : RecordForm UpdateOptions.fieldNames values text)
    (room : Nat) :
    Json.format.updateOptions (cursor (room + 1) text)
      = UpdateOptions.ofSettings <$> Fields.readPositional Json.format.updateField
        Ending.closed.toReading UpdateOptions.Field.all (values.map (cursor room)) := by
  let fields : Fields UpdateOptions.Field := ⟨UpdateOptions.Field.all, UpdateOptions.Field.name⟩
  obtain ⟨record, written, read⟩ := form.readRecord_cursor (F := fields) isValue
    Json.format.updateField (fun _ => Json.format.skip) (by decide) (by decide) .updateOptions room
  rw [updateOptions, written, ok_bind, map_eq_pure_bind, ← read]

/-- Collations in either form are read as their values by position. -/
theorem collation_recordForm (form : RecordForm Collation.fieldNames values text) (room : Nat) :
    Json.format.collation (cursor (room + 1) text)
      = Collation.ofSettings <$> Fields.readPositional Json.format.collationField
        Ending.closed.toReading Collation.Field.all (values.map (cursor room)) := by
  let fields : Fields Collation.Field := ⟨Collation.Field.all, Collation.Field.name⟩
  obtain ⟨record, written, read⟩ := form.readRecord_cursor (F := fields) isValue
    Json.format.collationField (fun _ => Json.format.skip) (by decide) (by decide) .collation room
  rw [collation, written, ok_bind, map_eq_pure_bind, ← read]

/-- The collation of options is read from either form. -/
theorem updateField_recordForm (form : RecordForm Collation.fieldNames values text) (room : Nat) :
    Json.format.updateField .collation (cursor (room + 1) text)
      = (fun c => .collation (some (Collation.ofSettings c))) <$> Fields.readPositional
        Json.format.collationField Ending.closed.toReading Collation.Field.all
        (values.map (cursor room)) := by
  rw [updateField, Source.optional, form.isNull_cursor isValue, ok_bind,
    collation_recordForm isValue form]
  cases Fields.readPositional Json.format.collationField Ending.closed.toReading
    Collation.Field.all (values.map (cursor room)) <;> rfl

end Values

/-- Two texts of the same collation are read alike. -/
theorem updateField_sameRecord {c c' : List Char} (same : SameRecord Collation.fieldNames c c')
    (room : Nat) :
    Json.format.updateField .collation (cursor (room + 1) c)
      = Json.format.updateField .collation (cursor (room + 1) c') := by
  obtain ⟨values, isValue, form, form'⟩ := same
  rw [updateField_recordForm isValue form, updateField_recordForm isValue form']

/-- More values than a collation has fields are refused. -/
theorem updateField_surplus {c : List Char} (surplus : IsSurplus c) (room : Nat) :
    ∃ p, Json.format.updateField .collation (cursor (room + 1) c) = .error p := by
  obtain ⟨values, isValue, long, form⟩ := surplus.exists_recordForm Collation.fieldNames
  obtain ⟨p, refused⟩ : ∃ p, Fields.readPositional Json.format.collationField
      Ending.closed.toReading Collation.Field.all (values.map (cursor room)) = .error p :=
    Fields.readPositional_surplus rfl (by rwa [List.length_map])
  exact ⟨p, by rw [updateField_recordForm isValue form, refused]; rfl⟩

end Format

namespace UpdateOptions

/-- A text that is one value between blanks is read as that value. -/
theorem ofJson_item {i : Item} (framed : i.Framed) (isValue : IsValue i.value) :
    ofJson i.text = Json.format.updateOptions (cursor 127 i.value) := by
  simp only [ofJson, Json.readText, i.ofText_text framed isValue.isScanned, Json.maxDepth,
    Item.node, cursor]
  cases Json.format.updateOptions ⟨127, (Node.ofText i.value).1⟩ <;> rfl

/-- A text that is a record in either form is read as its values by position. -/
theorem ofJson_recordForm_eq {i : Item} {values : List (List Char)} (framed : i.Framed)
    (isValue : ∀ v ∈ values, IsValue v) (form : RecordForm fieldNames values i.value) :
    ofJson i.text
      = ofSettings <$> Fields.readPositional Json.format.updateField Ending.closed.toReading
        Field.all (values.map (cursor 126)) := by
  rw [ofJson_item framed (form.isValue_text isValue), Format.updateOptions_recordForm isValue form]

/-- The collation of options that are written as an object may be exchanged for a text that is read
alike. -/
theorem ofJson_text_congr {t : Frame} {first last : List Member} {m : Member} {c : List Char}
    (wellFormed : ∀ n ∈ first ++ m :: last, n.WellFormed) (named : Says m.name "collation")
    (isValue : IsValue c) (alike : Json.format.updateField .collation (cursor 126 m.item.value)
      = Json.format.updateField .collation (cursor 126 c)) :
    ofJson (t.text (first ++ m :: last)) = ofJson (t.text (first ++ m.withValue c :: last)) := by
  obtain ⟨earlier, later⟩ := List.forall_mem_append.1 wellFormed
  obtain ⟨isMember, later⟩ := List.forall_mem_cons.1 later
  have others := List.forall_mem_append.2
    ⟨earlier, List.forall_mem_cons.2 ⟨isMember.withValue isValue, later⟩⟩
  rw [ofJson_text_middle t wellFormed named, ofJson_text_middle t others named]
  exact RecordReader.ofMembers_congr (R := Json.format.optionsReader) (f := .collation) (by decide)
    alike

theorem refused_of_surplus {i : Item} (framed : i.Framed) (surplus : IsSurplus i.value) :
    ∃ p, ofJson i.text = .error p := by
  obtain ⟨values, isValue, long, form⟩ := surplus.exists_recordForm fieldNames
  obtain ⟨p, refused⟩ : ∃ p, Fields.readPositional Json.format.updateField
      Ending.closed.toReading Field.all (values.map (cursor 126)) = .error p :=
    Fields.readPositional_surplus rfl (by rwa [List.length_map])
  exact ⟨p, by rw [ofJson_recordForm_eq framed isValue form, refused]; rfl⟩

/-- The values of options with a collation among them. -/
theorem isValue_withCollation {upsert bypass c : List Char} {rest : List (List Char)}
    (others : ∀ v ∈ upsert :: bypass :: rest, IsValue v) (isValue : IsValue c) :
    ∀ v ∈ upsert :: bypass :: c :: rest, IsValue v := by
  obtain ⟨first, others⟩ := List.forall_mem_cons.1 others
  obtain ⟨second, rest⟩ := List.forall_mem_cons.1 others
  exact List.forall_mem_cons.2 ⟨first, List.forall_mem_cons.2
    ⟨second, List.forall_mem_cons.2 ⟨isValue, rest⟩⟩⟩

/-- Options whose collation is written otherwise are read alike. -/
theorem ofJson_withCollation {i j : Item} {upsert bypass c c' : List Char}
    {rest : List (List Char)} (framed : i.Framed) (framed' : j.Framed)
    (others : ∀ v ∈ upsert :: bypass :: rest, IsValue v)
    (same : SameRecord Collation.fieldNames c c')
    (form : RecordForm fieldNames (upsert :: bypass :: c :: rest) i.value)
    (form' : RecordForm fieldNames (upsert :: bypass :: c' :: rest) j.value) :
    ofJson i.text = ofJson j.text := by
  have alike := Format.updateField_sameRecord same 125
  obtain ⟨isValue, isValue'⟩ := same.isValue
  rw [ofJson_recordForm_eq framed (isValue_withCollation others isValue) form,
    ofJson_recordForm_eq framed' (isValue_withCollation others isValue') form']
  simp only [Field.all, List.map_cons, Fields.readPositional, alike]

theorem refused_of_surplus_value {i : Item} {upsert bypass c : List Char}
    {rest : List (List Char)} (framed : i.Framed)
    (others : ∀ v ∈ upsert :: bypass :: rest, IsValue v) (surplus : IsSurplus c)
    (form : RecordForm fieldNames (upsert :: bypass :: c :: rest) i.value) :
    ∃ p, ofJson i.text = .error p := by
  obtain ⟨p, refused⟩ := Format.updateField_surplus surplus 125
  have read := ofJson_recordForm_eq framed (isValue_withCollation others surplus.isValue) form
  cases done : ofJson i.text with
  | error p => exact ⟨p, rfl⟩
  | ok o =>
      obtain ⟨settings, done, -⟩ := map_eq_ok_iff.1 (read.symm.trans done)
      obtain ⟨s, inside⟩ := Fields.exists_read_of_readPositional done (f := .collation)
        (v := cursor 126 c) (by simp [Field.all])
      cases refused.symm.trans inside

theorem refused_of_surplus_member (t : Frame) {first last : List Member} {m : Member}
    (wellFormed : ∀ n ∈ first ++ m :: last, n.WellFormed) (named : Says m.name "collation")
    (surplus : IsSurplus m.item.value) :
    ∃ p, ofJson (t.text (first ++ m :: last)) = .error p := by
  obtain ⟨p, refused⟩ := Format.updateField_surplus surplus 125
  have read := ofJson_text_middle t wellFormed named
  cases done : ofJson (t.text (first ++ m :: last)) with
  | error p => exact ⟨p, rfl⟩
  | ok o =>
      obtain ⟨s, inside, -⟩ := RecordReader.ofMembers_middle (read.symm.trans done)
        (f := .collation) (by decide)
      cases refused.symm.trans inside

/-- Options are read alike in either form, faults included, and so is the collation within them:
texts with the same values give the same result, whichever forms are chosen for the options and for
the collation, and more values than there are fields are refused at either level.  The order of the
fields is the one that is given here. -/
theorem ofJson_recordForm :
    (fieldNames = ["upsert", "bypassDocumentValidation", "collation", "arrayFilters", "hint",
      "hintString", "comment", "let", "sort"] ∧
    Collation.fieldNames = ["locale", "caseLevel", "caseFirst", "strength", "numericOrdering",
      "alternate", "maxVariable", "normalization", "backwards"]) ∧
    (∀ i j : Item, i.Framed → j.Framed → SameRecord fieldNames i.value j.value →
      ofJson i.text = ofJson j.text) ∧
    (∀ (i j : Item) (upsert bypass c c' : List Char) (rest : List (List Char)),
      i.Framed → j.Framed → (∀ v ∈ upsert :: bypass :: rest, IsValue v) →
      SameRecord Collation.fieldNames c c' →
      RecordForm fieldNames (upsert :: bypass :: c :: rest) i.value →
      RecordForm fieldNames (upsert :: bypass :: c' :: rest) j.value →
      ofJson i.text = ofJson j.text) ∧
    (∀ (t : Frame) (first last : List Member) (m : Member) (c : List Char),
      (∀ n ∈ first ++ m :: last, n.WellFormed) → Says m.name "collation" →
      SameRecord Collation.fieldNames m.item.value c →
      ofJson (t.text (first ++ m :: last)) = ofJson (t.text (first ++ m.withValue c :: last))) ∧
    (∀ i : Item, i.Framed → IsSurplus i.value → ∃ p, ofJson i.text = .error p) ∧
    (∀ (i : Item) (upsert bypass c : List Char) (rest : List (List Char)),
      i.Framed → (∀ v ∈ upsert :: bypass :: rest, IsValue v) → IsSurplus c →
      RecordForm fieldNames (upsert :: bypass :: c :: rest) i.value →
      ∃ p, ofJson i.text = .error p) ∧
    (∀ (t : Frame) (first last : List Member) (m : Member),
      (∀ n ∈ first ++ m :: last, n.WellFormed) → Says m.name "collation" →
      IsSurplus m.item.value → ∃ p, ofJson (t.text (first ++ m :: last)) = .error p) := by
  refine ⟨⟨rfl, rfl⟩, ?options, ?mixed, ?within, ?surplus, ?surplusMixed, ?surplusWithin⟩
  case options =>
    rintro i j framed framed' ⟨values, isValue, form, form'⟩
    rw [ofJson_recordForm_eq framed isValue form, ofJson_recordForm_eq framed' isValue form']
  case mixed =>
    intro i j upsert bypass c c' rest framed framed' others same form form'
    exact ofJson_withCollation framed framed' others same form form'
  case within =>
    intro t first last m c wellFormed named same
    exact ofJson_text_congr wellFormed named same.isValue.2 (Format.updateField_sameRecord same 125)
  case surplus => exact fun i framed surplus => refused_of_surplus framed surplus
  case surplusMixed =>
    intro i upsert bypass c rest framed others surplus form
    exact refused_of_surplus_value framed others surplus form
  case surplusWithin =>
    intro t first last m wellFormed named surplus
    exact refused_of_surplus_member t wellFormed named surplus

/-- The values of a collation without locale. -/
def twoValues : List (List Char) := ["null".toList, "false".toList]

/-- The values of options with this collation. -/
def threeValues (collation : List Char) : List (List Char) :=
  ["true".toList, "null".toList, collation]

theorem isValue_of_words {values : List (List Char)}
    (words : ∀ v ∈ values, v ∈ ["null".toList, "true".toList, "false".toList]) :
    ∀ v ∈ values, IsValue v :=
  fun v member => .word (words v member)

/-- The options that have just these values. -/
def threeOptions : UpdateOptions where
  upsert := true
  collation := some { caseLevel := some false }

/-- The array `[true,null,[null,false]]` and the object
`{"upsert":true,"bypassDocumentValidation":null,"collation":{"locale":null,"caseLevel":false}}` are
read as the same options, and an array of ten nulls is refused. -/
theorem ofJson_recordForm_three :
    (Item.compact (compactArray (threeValues (compactArray twoValues)))).text
      = "[true,null,[null,false]]".toList ∧
    ofJson (Item.compact (compactArray (threeValues (compactArray twoValues)))).text
      = .ok threeOptions ∧
    ofJson (Item.compact (compactObject fieldNames
      (threeValues (compactObject Collation.fieldNames twoValues)))).text = .ok threeOptions ∧
    ∃ p, ofJson (Item.compact (compactArray (List.replicate 10 "null".toList))).text
      = .error p := by
  obtain ⟨-, -, mixed, -, surplus, -, -⟩ := ofJson_recordForm
  have same : SameRecord Collation.fieldNames (compactArray twoValues)
      (compactObject Collation.fieldNames twoValues) :=
    ⟨twoValues, isValue_of_words (by decide), recordForm_compactArray _ _,
      recordForm_compactObject (by decide) (by decide)⟩
  have others : ∀ v ∈ ["true".toList, "null".toList], IsValue v := isValue_of_words (by decide)
  have alike : ofJson (Item.compact (compactArray (threeValues (compactArray twoValues)))).text
      = ofJson (Item.compact (compactObject fieldNames
        (threeValues (compactObject Collation.fieldNames twoValues)))).text :=
    mixed _ _ _ _ _ _ [] (Item.framed_compact _) (Item.framed_compact _) others same
      (recordForm_compactArray _ _) (recordForm_compactObject (by decide) (by decide))
  have text : (Item.compact (compactArray (threeValues (compactArray twoValues)))).text
      = "[true,null,[null,false]]".toList := by decide
  have read : ofJson (Item.compact (compactArray (threeValues (compactArray twoValues)))).text
      = .ok threeOptions := rfl
  refine ⟨text, read, alike.symm.trans read, ?surplus⟩
  refine surplus _ (Item.framed_compact _) ⟨[], _, List.forall_mem_nil _, ?_, ?_, ?_, rfl⟩
  · exact List.forall_mem_map.2 fun v _ => Item.framed_compact v
  · exact List.forall_mem_map.2 (isValue_of_words (by decide))
  · decide

end UpdateOptions

end DocumentCommand
