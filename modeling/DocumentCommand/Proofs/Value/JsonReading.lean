import DocumentCommand.Proofs.Value.Everywhere
import DocumentCommand.Proofs.Value.ScalarReading
import DocumentCommand.Value.Source

/-!
# Values read back from their JSON

A value whose documents have names of their own, none of them reserved, is read back from its JSON
level by level (`Json.readValue_toDatum`): arrays and documents are as they were, and every scalar
is what `Value.rereadScalar` says.
-/

namespace DocumentCommand

open Reading

namespace Value

/-- What integers and bytes without a further meaning are read back as, whose text is that of plain
numbers. -/
def plainScalar : Value → Value
  | .int32 n => .ofInteger n.toInt
  | .int64 n => .ofInteger n.toInt
  | .binary subtype bytes =>
    if subtype = genericSubtype then .array (bytes.map fun b => .int32 (Int32.ofNat b.toNat))
    else .binary subtype bytes
  | v => v

/-- A scalar in the form that one pass through JSON leaves it in: infinities and NaN become null,
and the options of regular expressions are sorted. -/
def normalizedScalar : Value → Value
  | .double x => if x.isFinite then .double x else .null
  | .regex pattern options => .regex pattern (sortedOptions options)
  | v => v.plainScalar

/-- What a scalar is read back as.  Decimal numbers come back in canonical packing. -/
def rereadScalar : Value → Value
  | .decimal d => .decimal d.canonical
  | v => v.normalizedScalar

/-- What a level has to be like in order to be read back. -/
structure Rereadable (v : Value) : Prop where
  distinct : v.DistinctNames
  unreserved : v.Avoids (Marker.all.map Marker.name)
  notFinite : v.NotFiniteDouble
  noNul : v.NoNulRegex

instance : DecidablePred Rereadable := fun v =>
  decidable_of_iff (v.DistinctNames ∧ v.Avoids (Marker.all.map Marker.name) ∧ v.NotFiniteDouble ∧
    v.NoNulRegex) ⟨fun ⟨d, u, f, n⟩ => ⟨d, u, f, n⟩, fun ⟨d, u, f, n⟩ => ⟨d, u, f, n⟩⟩

theorem isNull_ofInteger (n : Int) : (ofInteger n).isNull = false := by
  rw [ofInteger]
  split <;> rfl

/-- A value is read back as null when it is written as null. -/
theorem isNull_mapScalars_iff {v : Value} (notFinite : v.NotFiniteDouble) :
    (v.mapScalars rereadScalar).isNull = true ↔ v.toDatum = .null := by
  cases v with
  | null => exact iff_of_true rfl rfl
  | double x =>
      have infinite : x.isFinite = false := notFinite
      simp [mapScalars, rereadScalar, normalizedScalar, infinite, toDatum,
        Json.Datum.ofDouble, isNull]
  | int32 n | int64 n =>
      exact iff_of_false (Bool.eq_false_iff.1 (isNull_ofInteger n.toInt)) Json.Datum.noConfusion
  | binary subtype bytes =>
      simp only [toDatum, mapScalars, rereadScalar, normalizedScalar, plainScalar]
      split
      · exact iff_of_false Bool.false_ne_true Json.Datum.noConfusion
      · exact iff_of_false Bool.false_ne_true Json.Datum.noConfusion
  | _ => exact iff_of_false Bool.false_ne_true Json.Datum.noConfusion

end Value

theorem Marker.ofKey?_eq_none_iff {key : String} :
    Marker.ofKey? key = none ↔ key ∉ Marker.all.map Marker.name := by
  simp [Marker.ofKey?]

theorem Document.insert_of_notMem {name : String} {v : Value} {d : Document}
    (fresh : name ∉ d.names) : d.insert name v = d ++ [(name, v)] := by
  induction d with
  | nil => rfl
  | cons e d ih =>
      obtain ⟨k, w⟩ := e
      simp only [Document.names, List.map_cons, List.mem_cons, not_or] at fresh
      obtain ⟨other, fresh⟩ := fresh
      rw [Document.insert, if_neg fun same => other same.symm, ih fresh, List.cons_append]

namespace Json

open Value

/-- An array or an object takes one level of the room that there is for it. -/
theorem exists_inner_room {inner room : Nat} (deep : inner + 1 ≤ room) :
    ∃ r, room = r + 1 ∧ inner ≤ r :=
  ⟨room - 1, by omega, by omega⟩

theorem Datum.depth_le_itemsDepth {d : Datum} {items : List Datum} (member : d ∈ items) :
    d.depth ≤ itemsDepth items := by
  induction items with
  | nil => cases member
  | cons item rest ih =>
      rcases List.mem_cons.1 member with rfl | later
      · exact Nat.le_max_left _ _
      · exact Nat.le_trans (ih later) (Nat.le_max_right _ _)

theorem Datum.depth_le_membersDepth {m : String × Datum} {members : List (String × Datum)}
    (member : m ∈ members) : m.2.depth ≤ membersDepth members := by
  induction members with
  | nil => cases member
  | cons first rest ih =>
      rcases List.mem_cons.1 member with rfl | later
      · exact Nat.le_max_left _ _
      · exact Nat.le_trans (ih later) (Nat.le_max_right _ _)

/-- A member of an array is no deeper than the members together. -/
theorem depth_le_of_mem_items {v : Value} {items : List Value} (member : v ∈ items) :
    v.toDatum.depth ≤ Datum.itemsDepth (itemsDatum items) := by
  rw [itemsDatum_eq_map]
  exact Datum.depth_le_itemsDepth (List.mem_map_of_mem member)

/-- A field of a document is no deeper than the fields together. -/
theorem depth_le_of_mem_fields {e : String × Value} {entries : List (String × Value)}
    (member : e ∈ entries) : e.2.toDatum.depth ≤ Datum.membersDepth (entriesDatum entries) := by
  rw [entriesDatum_eq_map]
  exact Datum.depth_le_membersDepth (m := (e.1, e.2.toDatum)) (List.mem_map.2 ⟨e, member, rfl⟩)

theorem readValue_double {room : Nat} {x : Binary64} (infinite : x.isFinite = false) :
    readValue room (Value.double x).toDatum.node
      = .ok ((Value.double x).mapScalars rereadScalar) := by
  simp [Value.toDatum, Datum.ofDouble, infinite, Datum.node, readValue, mapScalars, rereadScalar,
    normalizedScalar]

theorem readValue_int32 (room : Nat) (n : Int32) :
    readValue room (Value.int32 n).toDatum.node = .ok (.ofInteger n.toInt) := by
  have least : Int64.minValue.toInt ≤ Int32.minValue.toInt := by decide
  have greatest : Int32.maxValue.toInt ≤ Int64.maxValue.toInt := by decide
  have inRange := And.intro n.minValue_le_toInt n.toInt_le
  exact readValue_integer room (by omega) (by omega)

theorem readValue_binary_plain {room : Nat} (subtype : UInt8) (bytes : List UInt8)
    (deep : (Value.binary subtype bytes).toDatum.depth ≤ room) :
    readValue room (Value.binary subtype bytes).toDatum.node
      = .ok (Value.binary subtype bytes).plainScalar := by
  by_cases generic : subtype = genericSubtype
  · simp only [Value.toDatum, Value.plainScalar, generic, if_true] at deep ⊢
    obtain ⟨r, rfl, -⟩ := exists_inner_room deep
    exact readValue_bytes r bytes
  · simp only [Value.plainScalar, generic, if_false]
    rw [Value.toDatum, if_neg generic] at deep
    obtain ⟨r, rfl⟩ := Nat.exists_eq_add_of_le' (m := 2) deep
    exact readValue_binary bytes generic

/-- A document is what the members of its object are. -/
theorem readDocument_object {room : Nat} {members : List (Quoted × Node)} {d : Document}
    (reads : readMembers room Ending.closed.toReading [] members = .ok (.document d)) :
    readDocument (room + 1) (.object members .closed) = .ok d := by
  rw [readDocument, descend, ok_bind, reads]
  rfl

theorem readValue_code (room : Nat) (source : String) :
    readValue (room + 1) (Value.code source).toDatum.node = .ok (.code source) := by
  have key : Marker.ofKey? "$code" = some .code := Marker.ofKey?_name .code
  have reads : Cursor.string ⟨room, (Datum.string source).node⟩ = .ok source :=
    Cursor.string_node room source
  simp only [Value.toDatum, Value.tagged, Datum.node, Datum.memberNodes, readValue, descend,
    ok_bind, readMembers, textOf_ofString, key]
  simp only [Datum.node] at reads
  rw [reads]
  rfl

/-- Source text with a scope, given the fields of the scope. -/
theorem readValue_codeWithScope {room : Nat} (source : String) {scope : List (String × Value)}
    {d : Document}
    (reads : readDocument room (Datum.object (Value.entriesDatum scope)).node = .ok d) :
    readValue (room + 1) (Value.codeWithScope source scope).toDatum.node
      = .ok (.codeWithScope source d) := by
  have key : Marker.ofKey? "$code" = some .code := Marker.ofKey?_name .code
  have readsSource : Cursor.string ⟨room, (Datum.string source).node⟩ = .ok source :=
    Cursor.string_node room source
  simp only [Datum.node] at readsSource reads
  simp only [Value.toDatum, Datum.node, Datum.memberNodes, readValue, descend, ok_bind,
    readMembers, textOf_ofString, key, readsSource, Marker.name, if_true, reads]
  rfl

mutual

/-- A value is read back from its JSON with its scalars as they are read back. -/
theorem readValue_toDatum : ∀ (v : Value) (room : Nat), v.Everywhere Rereadable →
    v.toDatum.depth ≤ room → readValue room v.toDatum.node = .ok (v.mapScalars rereadScalar)
  | .null, _, _, _ => rfl
  | .bool b, _, _, _ => rfl
  | .int32 n, room, _, _ => readValue_int32 room n
  | .int64 n, room, _, _ => readValue_integer room n.minValue_le_toInt n.toInt_le
  | .double x, _, readable, _ => readValue_double readable.here.notFinite
  | .string s, _, _, _ => by
      simp only [toDatum, Datum.node, readValue, textOf_ofString, ok_bind]
      rfl
  | .objectId id, room + 1, _, _ => readValue_objectId id
  | .instant t, room + 2, _, _ => readValue_instant t
  | .binary subtype bytes, _, _, deep => readValue_binary_plain subtype bytes deep
  | .regex pattern options, room + 2, readable, _ => readValue_regex readable.here.noNul
  | .timestamp time increment, room + 2, _, _ => readValue_timestamp time increment
  | .decimal d, room + 1, _, _ => readValue_decimal d
  | .symbol s, room + 1, _, _ => by
      refine (readValue_tagged room .symbol _).trans ?_
      simp only [readTagged, Cursor.string_node, ok_bind]
      rfl
  | .code source, room + 1, _, _ => readValue_code room source
  | .pointer collection id, room + 3, _, _ => readValue_pointer collection id
  | .undefined, room + 1, _, _ => readValue_tagged room .undefined _
  | .minKey, room + 1, _, _ =>
      (readValue_tagged room .minKey _).trans (extreme_one room .minKey .minKey)
  | .maxKey, room + 1, _, _ =>
      (readValue_tagged room .maxKey _).trans (extreme_one room .maxKey .maxKey)
  | .array items, room + 1, readable, deep => by
      have inner := readItems_itemsDatum items room (fun v => readable.of_item)
        (Nat.le_of_succ_le_succ deep)
      simp only [toDatum, Datum.node, readValue, descend, ok_bind, inner, Ending.toReading]
      rfl
  | .document entries, room + 1, readable, deep => by
      have inner := readMembers_entriesDatum entries [] room readable.here.distinct
        readable.here.unreserved (fun e => readable.of_field) (Nat.le_of_succ_le_succ deep)
      simp only [toDatum, Datum.node, readValue, descend, ok_bind, inner]
      rfl
  | .codeWithScope source scope, room + 2, readable, deep => by
      have shallow : Datum.membersDepth (entriesDatum scope) ≤ room := by
        obtain ⟨-, scopeDeep⟩ := Nat.max_le.1 (Nat.le_of_succ_le_succ deep)
        exact Nat.le_of_succ_le_succ (Nat.max_le.1 scopeDeep).1
      have inner := readMembers_entriesDatum scope [] room readable.here.distinct
        readable.here.unreserved (fun e => readable.of_field) shallow
      exact readValue_codeWithScope source (readDocument_object inner)

/-- The members of an array are read back one after another. -/
theorem readItems_itemsDatum : ∀ (items : List Value) (room : Nat),
    (∀ v ∈ items, v.Everywhere Rereadable) → Datum.itemsDepth (itemsDatum items) ≤ room →
      readItems room (Datum.itemNodes (itemsDatum items)) = .ok (mapItems rereadScalar items)
  | [], _, _, _ => rfl
  | v :: rest, room, readable, deep => by
      obtain ⟨headReadable, restReadable⟩ := List.forall_mem_cons.1 readable
      obtain ⟨headDeep, restDeep⟩ := Nat.max_le.1 deep
      have first := readValue_toDatum v room headReadable headDeep
      have others := readItems_itemsDatum rest room restReadable restDeep
      simp only [itemsDatum, Datum.itemNodes, readItems, first, others, ok_bind, pure_eq_ok,
        mapItems]

/-- The members of an object are read back behind the fields before them, as long as all their names
differ. -/
theorem readMembers_entriesDatum : ∀ (entries before : Document) (room : Nat),
    (Document.names before ++ Document.names entries).Nodup →
    (∀ name ∈ Document.names entries, name ∉ Marker.all.map Marker.name) →
    (∀ e ∈ entries, e.2.Everywhere Rereadable) →
      Datum.membersDepth (entriesDatum entries) ≤ room →
      readMembers room Ending.closed.toReading before (Datum.memberNodes (entriesDatum entries))
        = .ok (.document (before ++ mapEntries rereadScalar entries))
  | [], before, _, _, _, _, _ => by
      simp only [entriesDatum, Datum.memberNodes, readMembers, Ending.toReading, ok_bind,
        pure_eq_ok, mapEntries, List.append_nil]
  | (name, v) :: rest, before, room, distinct, unreserved, readable, deep => by
      obtain ⟨headReadable, restReadable⟩ := List.forall_mem_cons.1 readable
      obtain ⟨headDeep, restDeep⟩ := Nat.max_le.1 deep
      obtain ⟨headPlain, restPlain⟩ := List.forall_mem_cons.1 unreserved
      have first := readValue_toDatum v room headReadable headDeep
      have plain := Marker.ofKey?_eq_none_iff.2 headPlain
      have fresh : name ∉ Document.names before := by
        intro old
        exact (List.nodup_append.1 distinct).2.2 name old name List.mem_cons_self rfl
      let read : Document := before ++ [(name, v.mapScalars rereadScalar)]
      have stillDistinct : (Document.names read ++ Document.names rest).Nodup := by
        simpa only [read, Document.names, List.map_append, List.map_cons, List.map_nil,
          List.append_assoc, List.singleton_append] using distinct
      have others := readMembers_entriesDatum rest read room stillDistinct restPlain restReadable
        restDeep
      simp only [entriesDatum, Datum.memberNodes, readMembers, textOf_ofString, ok_bind, plain,
        first, Document.insert_of_notMem fresh]
      rw [others, mapEntries, List.append_assoc, List.singleton_append]

end

/-- A document is read back where a document is wanted. -/
theorem readDocument_toDatum (d : Document) (room : Nat)
    (readable : (Value.document d).Everywhere Rereadable) (deep : d.toDatum.depth ≤ room) :
    readDocument room d.toDatum.node = .ok (mapEntries rereadScalar d) := by
  obtain ⟨r, rfl, shallow⟩ := exists_inner_room deep
  apply readDocument_object
  exact readMembers_entriesDatum d [] r readable.here.distinct readable.here.unreserved
    (fun e => readable.of_field) shallow

end Json
end DocumentCommand
