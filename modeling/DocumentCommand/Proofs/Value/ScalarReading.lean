import DocumentCommand.Json.Source
import DocumentCommand.Proofs.Decimal128.RoundTrip
import DocumentCommand.Proofs.Json.CompactText
import DocumentCommand.Proofs.Reading.Record
import DocumentCommand.Value.Extended

/-!
# Scalars read back from their JSON

Each kind of scalar has a lemma here that says what its JSON is read back as.  All but integers,
doubles, bytes without a further meaning, decimal numbers and regular expressions come back as they
were.
-/

namespace DocumentCommand

open Reading

theorem Marker.ofKey?_name (m : Marker) : Marker.ofKey? m.name = some m := by
  cases m with
  | typed tag => cases tag <;> decide
  | code => decide
  | scope => decide

/-- The value of an integer that is written without its width: the narrowest integer for those that
carry no sign, and 64 bits for the negative ones. -/
def Value.ofInteger (n : Int) : Value :=
  if 0 ≤ n ∧ n ≤ Int32.maxValue.toInt then .int32 (Int32.ofInt n) else .int64 (Int64.ofInt n)

theorem Value.itemsDatum_eq_map (items : List Value) : itemsDatum items = items.map toDatum := by
  induction items with
  | nil => rfl
  | cons v rest ih => rw [itemsDatum, ih, List.map_cons]

theorem Value.entriesDatum_eq_map (entries : List (String × Value)) :
    entriesDatum entries = entries.map fun e => (e.1, e.2.toDatum) := by
  induction entries with
  | nil => rfl
  | cons e rest ih => rw [entriesDatum, ih, List.map_cons]

@[simp] theorem ObjectId.ofHex?_hex (id : ObjectId) : ObjectId.ofHex? id.hex = some id := by
  simp [ObjectId.ofHex?, ObjectId.hex, ObjectId.ofBytes?, id.size_eq]

@[simp] theorem Reading.orExtended_some {α : Type} (m : Marker) (x : α) :
    orExtended m (some x) = .ok x := rfl

namespace Json

@[simp] theorem textOf_ofString (s : String) : textOf (.ofString s) = .ok s := by
  simp [textOf]

theorem numberOf_ofInt {n : Int} (least : Int64.minValue.toInt ≤ n) (greatest : n < UInt64.size) :
    numberOf (.ofInt n) = .ok (.integer n) := by
  simp [numberOf, Numeral.value?_ofInt least greatest]

namespace Cursor

theorem natural_integer (room : Nat) {bound n : Nat} (wide : bound ≤ UInt64.size)
    (below : n < bound) :
    source.natural bound ⟨room, (Datum.integer n).node⟩ = .ok n := by
  have asNatural : source.natural = natural := rfl
  have least : Int64.minValue.toInt ≤ (n : Int) := by
    have : Int64.minValue.toInt ≤ 0 := by decide
    omega
  have inRange : 0 ≤ (n : Int) ∧ (n : Int) < bound := by omega
  simp [asNatural, natural, Datum.node, numberOf_ofInt least (by omega : (n : Int) < UInt64.size),
    below]

/-- The members of an object that is written are a record that simply ends. -/
theorem record_object (wanted : Wanted) (room : Nat) (members : List (String × Datum)) :
    record wanted ⟨room + 1, (Datum.object members).node⟩
      = .ok (.named
        ⟨members.map fun m => (.ok m.1, ⟨room, m.2.node⟩), Ending.closed.toReading⟩) := by
  have nodes : ∀ ms : List (String × Datum),
      (Datum.memberNodes ms).map (fun m => (textOf m.1, (⟨room, m.2⟩ : Cursor)))
        = ms.map fun m => (.ok m.1, ⟨room, m.2.node⟩) := by
    intro ms
    induction ms with
    | nil => rfl
    | cons m ms ih => simp [Datum.memberNodes, ih]
  simp [record, Datum.node, descend, nodes]

theorem sequence_array (room : Nat) (items : List Datum) :
    sequence ⟨room + 1, (Datum.array items).node⟩
      = .ok ⟨items.map fun d => ⟨room, d.node⟩, Ending.closed.toReading⟩ := by
  have nodes : ∀ ds : List Datum,
      (Datum.itemNodes ds).map (fun n => (⟨room, n⟩ : Cursor))
        = ds.map fun d => ⟨room, d.node⟩ := by
    intro ds
    induction ds with
    | nil => rfl
    | cons d ds ih => simp [Datum.itemNodes, ih]
  simp [sequence, Datum.node, descend, nodes]

/-- The fields of a document that is written are a record that simply ends. -/
theorem record_document (wanted : Wanted) (room : Nat) (d : Document) :
    record wanted ⟨room + 1, d.toDatum.node⟩
      = .ok (.named
        ⟨d.map fun e => (.ok e.1, ⟨room, e.2.toDatum.node⟩), Ending.closed.toReading⟩) := by
  rw [Document.toDatum, record_object, Value.entriesDatum_eq_map, List.map_map]
  rfl

/-- An array of values that is written is read value by value. -/
theorem list_array {α : Type} (read : Cursor → Except Problem α) (room : Nat) (items : List Value) :
    source.list read ⟨room + 1, (Value.array items).toDatum.node⟩
      = items.mapM fun v => read ⟨room, v.toDatum.node⟩ := by
  have asSequence : source.sequence = sequence := rfl
  rw [Value.toDatum, Source.list, asSequence, sequence_array, ok_bind, Value.itemsDatum_eq_map,
    List.map_map, List.mapM_map]
  exact bind_pure _

/-- An object of two members is read member by member. -/
theorem pair_object {α β : Type} {first second : String} (distinct : first ≠ second)
    {readFirst : Cursor → Except Problem α} {readSecond : Cursor → Except Problem β}
    {room : Nat} {x y : Datum} {a : α} {b : β}
    (readsFirst : readFirst ⟨room, x.node⟩ = .ok a)
    (readsSecond : readSecond ⟨room, y.node⟩ = .ok b) :
    pair source first readFirst second readSecond
      ⟨room + 1, (Datum.object [(first, x), (second, y)]).node⟩ = .ok (a, b) := by
  have asRecord : source.record = record := rfl
  simp [pair, closedRecord, asRecord, record_object, Fields.readRecord, Fields.readNamed,
    Fields.find?, distinct, distinct.symm, readsFirst, readsSecond, required, Ending.toReading,
    List.findSome?_cons]

/-- An object of one member is what the member writes. -/
theorem only_object {α : Type} (name : String) {readMember : Cursor → Except Problem α}
    {room : Nat} {x : Datum} {a : α} (reads : readMember ⟨room, x.node⟩ = .ok a) :
    only source name readMember ⟨room + 1, (Datum.object [(name, x)]).node⟩ = .ok a := by
  have asRecord : source.record = record := rfl
  simp [only, closedRecord, asRecord, record_object, Fields.readRecord, Fields.readNamed,
    Fields.find?, reads, required, Ending.toReading]

end Cursor

/-- An object under a reserved name is what its only member writes. -/
theorem readValue_tagged (room : Nat) (tag : Tag) (body : Datum) :
    readValue (room + 1) (Value.tagged (Marker.typed tag).name body).node
      = readTagged Cursor.source tag ⟨room, body.node⟩ := by
  simp only [Value.tagged, Datum.node, Datum.memberNodes, readValue, descend, readMembers,
    textOf_ofString, Marker.ofKey?_name, ok_bind, pure_eq_ok, Ending.toReading,
    Reading.Ending.before]
  cases readTagged Cursor.source tag ⟨room, body.node⟩ <;> rfl

/-! ### Scalars -/

theorem valueOfNumber_integer {n : Int} (least : Int64.minValue.toInt ≤ n)
    (greatest : n ≤ Int64.maxValue.toInt) :
    valueOfNumber (.integer n) = .ok (Value.ofInteger n) := by
  have wide : Integer.int64? n = some (Int64.ofInt n) := if_pos ⟨least, greatest⟩
  have lowest : Int32.minValue.toInt ≤ 0 := by decide
  by_cases sign : n < 0
  · have negative : ¬ (0 ≤ n ∧ n ≤ Int32.maxValue.toInt) := by omega
    simp only [valueOfNumber, sign, if_true, wide, Value.ofInteger, negative, if_false]
  · by_cases small : n ≤ Int32.maxValue.toInt
    · have narrow : Integer.int32? n = some (Int32.ofInt n) := if_pos ⟨by omega, small⟩
      have fits : 0 ≤ n ∧ n ≤ Int32.maxValue.toInt := ⟨by omega, small⟩
      simp only [valueOfNumber, sign, if_false, narrow, Value.ofInteger, fits, and_self, if_true]
    · have narrow : Integer.int32? n = none := if_neg fun h => small h.2
      have large : ¬ (0 ≤ n ∧ n ≤ Int32.maxValue.toInt) := fun h => small h.2
      simp only [valueOfNumber, sign, if_false, narrow, wide, Value.ofInteger, large]

theorem readValue_integer (room : Nat) {n : Int} (least : Int64.minValue.toInt ≤ n)
    (greatest : n ≤ Int64.maxValue.toInt) :
    readValue room (Datum.integer n).node = .ok (Value.ofInteger n) := by
  have largest : Int64.maxValue.toInt < UInt64.size := by decide
  simp only [Datum.node, readValue, numberOf_ofInt least (by omega), ok_bind,
    valueOfNumber_integer least greatest]

theorem readValue_objectId {room : Nat} (id : ObjectId) :
    readValue (room + 1) (Value.objectId id).toDatum.node = .ok (.objectId id) := by
  have reads : Cursor.source.objectId ⟨room, (Datum.string (String.ofList id.hex)).node⟩
      = .ok id := by
    simp [Cursor.source, Cursor.objectId, Datum.node]
  exact (readValue_tagged room .objectId _).trans (by simp [readTagged, reads])

theorem readValue_instant {room : Nat} (t : Instant) :
    readValue (room + 2) (Value.instant t).toDatum.node = .ok (.instant t) := by
  have reads : Cursor.source.instant ⟨room + 1, (Value.tagged "$numberLong"
      (.string (String.ofList (Text.Digits.ofInt t.milliseconds.toInt)))).node⟩ = .ok t := by
    simp [Cursor.source, Cursor.instant, Datum.node, Value.tagged, Datum.memberNodes, Node.check,
      checkMembers, descend, Ending.toReading, int64OfText?, Marker.name]
  exact (readValue_tagged (room + 1) .instant _).trans (by simp [readTagged, reads])

/-- A text within an object that is written. -/
theorem Cursor.string_node (room : Nat) (s : String) :
    Cursor.source.string ⟨room, (Datum.string s).node⟩ = .ok s :=
  textOf_ofString s

theorem readValue_binary {room : Nat} {subtype : UInt8} (bytes : List UInt8)
    (special : subtype ≠ Value.genericSubtype) :
    readValue (room + 2) (Value.binary subtype bytes).toDatum.node
      = .ok (.binary subtype bytes) := by
  have reads := Cursor.pair_object (by decide : "base64" ≠ "subType")
    (Cursor.string_node room (String.ofList (Text.Base64.encode bytes)))
    (Cursor.string_node room (String.ofList (Text.Hex.ofByte subtype)))
  rw [Value.toDatum, if_neg special]
  refine (readValue_tagged (room + 1) .binary _).trans ?_
  simp [readTagged, reads, binary?]

theorem readValue_regex {room : Nat} {pattern options : String}
    (noNul : hasNul pattern = false ∧ hasNul options = false) :
    readValue (room + 2) (Value.regex pattern options).toDatum.node
      = .ok (.regex pattern (sortedOptions options)) := by
  have reads := Cursor.pair_object (by decide : "pattern" ≠ "options")
    (Cursor.string_node room pattern) (Cursor.string_node room options)
  refine (readValue_tagged (room + 1) .regex _).trans ?_
  simp [readTagged, reads, regex?, noNul]

theorem readValue_timestamp {room : Nat} (time increment : UInt32) :
    readValue (room + 2) (Value.timestamp time increment).toDatum.node
      = .ok (.timestamp time increment) := by
  have wide : UInt32.size ≤ UInt64.size := by decide
  have reads := Cursor.pair_object (by decide : "t" ≠ "i")
    (Cursor.natural_integer room wide time.toNat_lt)
    (Cursor.natural_integer room wide increment.toNat_lt)
  refine (readValue_tagged (room + 1) .timestamp _).trans ?_
  simp [readTagged, reads]

theorem readValue_decimal {room : Nat} (d : Decimal128) :
    readValue (room + 1) (Value.decimal d).toDatum.node = .ok (.decimal d.canonical) := by
  refine (readValue_tagged room .decimal _).trans ?_
  simp [readTagged, Cursor.string_node, Decimal128.read?_text]

theorem readValue_pointer {room : Nat} (collection : String) (id : ObjectId) :
    readValue (room + 3) (Value.pointer collection id).toDatum.node
      = .ok (.pointer collection id) := by
  have reads := Cursor.pair_object (by decide : "$ref" ≠ "$id")
    (Cursor.string_node (room + 1) collection)
    (Cursor.only_object "$oid" (Cursor.string_node room (String.ofList id.hex)))
  refine (readValue_tagged (room + 2) .pointer _).trans ?_
  simp [readTagged, Value.objectIdDatum, Value.tagged, reads]

/-- A word that stands for a key at an end of the order. -/
theorem extreme_one (room : Nat) (tag : Tag) (v : Value) :
    extreme Cursor.source tag v ⟨room, (Datum.integer 1).node⟩ = .ok v := by
  have reads : Cursor.source.natural 256 ⟨room, (Datum.integer 1).node⟩ = .ok 1 :=
    Cursor.natural_integer room (n := 1) (by decide) (by decide)
  simp [extreme, reads]

theorem readItems_bytes (room : Nat) (bytes : List UInt8) :
    readItems room (Datum.itemNodes (bytes.map fun b => .integer b.toNat))
      = .ok (bytes.map fun b => .int32 (Int32.ofNat b.toNat)) := by
  induction bytes with
  | nil => rfl
  | cons b bytes ih =>
      have small := b.toNat_lt
      have least : Int64.minValue.toInt ≤ (b.toNat : Int) := by
        have : Int64.minValue.toInt ≤ 0 := by decide
        omega
      have greatest : (b.toNat : Int) ≤ Int32.maxValue.toInt := by
        have : Int32.maxValue.toInt = 2147483647 := by decide
        omega
      have wide : Int32.maxValue.toInt ≤ Int64.maxValue.toInt := by decide
      have first := readValue_integer room least (by omega)
      have narrow : Value.ofInteger b.toNat = .int32 (Int32.ofNat b.toNat) :=
        if_pos ⟨by omega, greatest⟩
      simp only [List.map_cons, Datum.itemNodes, readItems, first, narrow, ih, ok_bind, pure_eq_ok]

theorem readValue_bytes (room : Nat) (bytes : List UInt8) :
    readValue (room + 1) (Value.bytesDatum bytes).node
      = .ok (.array (bytes.map fun b => .int32 (Int32.ofNat b.toNat))) := by
  simp only [Value.bytesDatum, Datum.node, readValue, descend, ok_bind, readItems_bytes,
    Ending.toReading, pure_eq_ok]

end Json
end DocumentCommand
