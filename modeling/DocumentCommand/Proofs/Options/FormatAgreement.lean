import DocumentCommand.Proofs.Options.JsonReading
import DocumentCommand.Proofs.Value.PlainReading

/-!
# Options in both formats

A plain document and its JSON text are read as the same options, or neither is read as any
(`UpdateOptions.ofDocument_eq_ok_iff_ofJson`).  The formats differ on collations that are arrays and
on alternatives that are named by documents, so these are left out.
-/

namespace DocumentCommand

open Reading Value
open Json (Cursor)

/-- It is no array, and no document stands in a field of it that names an alternative. -/
def Value.PlainCollation (v : Value) : Prop :=
  (∀ items, v ≠ .array items) ∧
    ∀ name ∈ ["caseFirst", "alternate", "maxVariable"], ∀ d, (name, .document d) ∉ v.fields

namespace Format

section

variable {v : Value} {room : Nat}

/-- Records that are no arrays are read alike, when their fields are. -/
theorem agree_record {φ σ τ : Type} [DecidableEq φ] (F : Fields φ) (wanted : Wanted)
    (common : v.Everywhere Common) (deep : v.toDatum.depth ≤ room)
    (noArray : ∀ items, v ≠ .array items) {readA : φ → Value → Except Problem σ}
    {readB : φ → Cursor → Except Problem σ} (finish : List σ → τ)
    (each : ∀ e ∈ v.fields, ∀ f, F.name f = e.1 → ∀ r, e.2.toDatum.depth ≤ r →
      Agree (readA f e.2) (readB f ⟨r, e.2.toDatum.node⟩)) :
    Agree
      (do
        let settings ← F.readRecord readA (fun _ => Value.format.skip)
          (← Value.format.record wanted v)
        return finish settings)
      (do
        let settings ← F.readRecord readB (fun _ => Json.format.skip)
          (← Json.format.record wanted ⟨room, v.toDatum.node⟩)
        return finish settings) := by
  have refused : ∀ record : Record Cursor, Json.refuse wanted v.toDatum.node ≠ .ok record :=
    fun _ => Json.refuse_ne_ok wanted v.toDatum.node
  cases v with
  | document d =>
      obtain ⟨r, rfl, shallow⟩ := Json.exists_inner_room deep
      have value : Value.format.record wanted (.document d)
          = .ok (.named ⟨d.map fun e => (.ok e.1, e.2), .open⟩) := rfl
      have json : Json.format.record wanted ⟨r + 1, (Value.document d).toDatum.node⟩
          = .ok (.named ⟨d.map fun e => (.ok e.1, ⟨r, e.2.toDatum.node⟩),
            Json.Ending.closed.toReading⟩) := Cursor.record_document wanted r d
      have whole : ∀ e ∈ d, e.2.toDatum.Whole := by
        intro e member
        have field : e.2.Everywhere Common := common.of_field (show (e.1, e.2) ∈ d from member)
        exact Value.whole_toDatum e.2 (field.imp fun _ level => level.plain.notFinite)
      have inside : ∀ e ∈ d, e.2.toDatum.depth ≤ r := fun e member =>
        Nat.le_trans (Json.depth_le_of_mem_fields member) shallow
      rw [value, json, ok_bind, ok_bind, Fields.readRecord, Fields.readRecord]
      apply Agree.bind
      · apply F.agree_readNamed (fun w : Value => w)
          (fun w : Value => (⟨r, w.toDatum.node⟩ : Cursor))
        · rfl
        · rfl
        · exact fun _ _ => rfl
        · exact fun e member => Json.skip_node e.2.toDatum (whole e member)
        · exact fun e member f named => each e member f named r (inside e member)
      · exact fun _ => Agree.refl _
  | array items => exact absurd rfl (noArray items)
  | null | bool b | string s | int32 n | int64 n =>
      apply Agree.of_fail
      · rintro x ⟨⟩
      · intro x read
        obtain ⟨record, reads, -⟩ := bind_eq_ok_iff.1 read
        exact refused record reads
  | _ => exact common.here.plain.elim

/-- An alternative whose name is no document of its own is read alike. -/
theorem agree_choice (α : Type) [Named α] (plain : v.IsPlain) (noDocument : ∀ d, v ≠ .document d) :
    Agree (Value.format.choice α v) (Json.format.choice α ⟨room, v.toDatum.node⟩) := by
  apply Agree.bind (agree_variant plain room noDocument (Named.names α))
  exact fun _ => Agree.refl _

theorem agree_strength (plain : v.IsPlain) :
    Agree (Value.format.strength v) (Json.format.strength ⟨room, v.toDatum.node⟩) := by
  apply Agree.bind (agree_int32 plain room)
  exact fun _ => Agree.refl _

theorem agree_collationField (f : Collation.Field) (plain : v.IsPlain)
    (noDocument : f.name ∈ ["caseFirst", "alternate", "maxVariable"] → ∀ d, v ≠ .document d) :
    Agree (Value.format.collationField f v)
      (Json.format.collationField f ⟨room, v.toDatum.node⟩) := by
  cases f with
  | locale => exact (agree_optional plain room fun _ => agree_string plain room).map _
  | caseLevel | numericOrdering | normalization | backwards =>
      exact (agree_optional plain room fun _ => agree_bool plain room).map _
  | strength => exact (agree_optional plain room fun _ => agree_strength plain).map _
  | caseFirst | alternate | maxVariable =>
      exact (agree_optional plain room fun _ =>
        agree_choice _ plain (noDocument (by decide))).map _

theorem agree_collation (common : v.Everywhere Common) (deep : v.toDatum.depth ≤ room)
    (collation : v.PlainCollation) :
    Agree (Value.format.collation v) (Json.format.collation ⟨room, v.toDatum.node⟩) := by
  apply agree_record _ .collation common deep collation.1
  rintro ⟨name, w⟩ member f rfl r inside
  have field : w.Everywhere Common := common.of_field member
  apply agree_collationField f field.here.plain
  rintro named d rfl
  exact collation.2 f.name named d member

theorem agree_updateField (f : UpdateOptions.Field) (common : v.Everywhere Common)
    (deep : v.toDatum.depth ≤ room) (collation : f = .collation → v.PlainCollation) :
    Agree (Value.format.updateField f v) (Json.format.updateField f ⟨room, v.toDatum.node⟩) := by
  have plain : v.IsPlain := common.here.plain
  cases f with
  | upsert => exact (agree_bool plain room).map _
  | bypassDocumentValidation =>
      exact (agree_optional plain room fun _ => agree_bool plain room).map _
  | collation =>
      exact (agree_optional plain room fun _ => agree_collation common deep (collation rfl)).map _
  | arrayFilters =>
      have filters : Agree (Value.format.list Value.format.document v)
          (Json.format.list Json.format.document ⟨room, v.toDatum.node⟩) := by
        apply agree_list plain room deep
        rintro items rfl w member r inside
        exact agree_document (common.of_item member) inside
      exact (agree_optional plain room fun _ => filters).map _
  | hint | bindings | sort =>
      exact (agree_optional plain room fun _ => agree_document common deep).map _
  | hintString => exact (agree_optional plain room fun _ => agree_string plain room).map _
  | comment => exact (agree_optional plain room fun _ => agree_value common deep).map _

end

end Format

namespace UpdateOptions

/-- A plain document and its JSON text are read as the same options, or neither is read, when no
name is reserved, no collation is an array or names an alternative by a document, and the text is
not too deep. -/
theorem ofDocument_eq_ok_iff_ofJson (d : DistinctDocument)
    (plain : (Value.document d.entries).Everywhere Value.IsPlain)
    (unreserved : (Value.document d.entries).Everywhere (Value.Avoids (Marker.all.map Marker.name)))
    (collation : ∀ v, ("collation", v) ∈ d.entries → v.PlainCollation)
    (shallow : d.entries.toDatum.depth ≤ Json.maxDepth) (o : UpdateOptions) :
    ofDocument d.entries = .ok o ↔ ofJson d.entries.toDatum.text = .ok o := by
  obtain ⟨d, distinct⟩ := d
  have common : (Value.document d).Everywhere Common :=
    ((plain.and distinct).and unreserved).imp fun _ ⟨⟨p, n⟩, u⟩ => ⟨p, n, u⟩
  have whole : d.toDatum.Whole :=
    Value.whole_toDatum (.document d) (common.imp fun _ level => level.plain.notFinite)
  have agree : Agree (Value.format.updateOptions (.document d))
      (Json.format.updateOptions ⟨Json.maxDepth, (Value.document d).toDatum.node⟩) := by
    apply Format.agree_record _ .updateOptions common shallow (fun _ => Value.noConfusion)
    rintro ⟨name, v⟩ member f rfl r inside
    apply Format.agree_updateField f (common.of_field member) inside
    rintro rfl
    exact collation v member
  rw [ofJson_text whole]
  exact agree o

/-- A plain document with known and unknown fields; one of the unknown ones has the name of a known
one but for its case. -/
def plainDocument : DistinctDocument where
  entries := [
    ("upsert", .bool true),
    ("collation", .document [("locale", .string "fr"), ("strength", .int32 2), ("Locale", .null)]),
    ("arrayFilters", .array [.document [("a", .int64 (-1))], .document []]),
    ("comment", .array [.null, .string "c", .int64 2147483648]),
    ("unknown", .document [("upsert", .string "yes")]),
    ("hint", .document [("a", .int32 1)])]
  distinct := by decide

/-- The options that it is read as. -/
def plainOptions : UpdateOptions where
  upsert := true
  collation := some { locale := some "fr", strength := some .secondary }
  arrayFilters := some [[("a", .int64 (-1))], []]
  comment := some (.array [.null, .string "c", .int64 2147483648])
  hint := some [("a", .int32 1)]

theorem ofDocument_eq_ok_iff_ofJson_plainDocument :
    (Value.document plainDocument.entries).Everywhere Value.IsPlain ∧
      (Value.document plainDocument.entries).Everywhere
        (Value.Avoids (Marker.all.map Marker.name)) ∧
      (∀ v, ("collation", v) ∈ plainDocument.entries → v.PlainCollation) ∧
      plainDocument.entries.toDatum.depth ≤ Json.maxDepth ∧
      (∀ o, ofDocument plainDocument.entries = .ok o ↔
        ofJson plainDocument.entries.toDatum.text = .ok o) ∧
      ofDocument plainDocument.entries = .ok plainOptions ∧
      ofJson plainDocument.entries.toDatum.text = .ok plainOptions := by
  have plain : (Value.document plainDocument.entries).Everywhere Value.IsPlain := by decide
  have unreserved : (Value.document plainDocument.entries).Everywhere
      (Value.Avoids (Marker.all.map Marker.name)) := by decide
  have collation : ∀ v, ("collation", v) ∈ plainDocument.entries → v.PlainCollation := by
    intro v member
    obtain rfl : v = .document [("locale", .string "fr"), ("strength", .int32 2),
        ("Locale", .null)] := by simpa [plainDocument] using member
    constructor
    · exact fun _ => Value.noConfusion
    · simp [Value.fields]
  have shallow : plainDocument.entries.toDatum.depth ≤ Json.maxDepth := by decide
  have agree := ofDocument_eq_ok_iff_ofJson plainDocument plain unreserved collation shallow
  have read : ofDocument plainDocument.entries = .ok plainOptions := rfl
  exact ⟨plain, unreserved, collation, shallow, agree, read, (agree plainOptions).1 read⟩

/-- The name for the bytes of a decimal number is reserved as well: documents take sixteen
characters under it for the bytes whatever follows, and JSON wants nothing to follow. -/
theorem not_ofDocument_eq_ok_iff_of_decimalBytes : ¬ ∀ d : DistinctDocument,
    (Value.document d.entries).Everywhere Value.IsPlain →
      (Value.document d.entries).Everywhere
        (Value.Avoids ((Marker.all.filter (· ≠ .typed .decimalBytes)).map Marker.name)) →
      (∀ v, ("collation", v) ∈ d.entries → v.PlainCollation) →
      d.entries.toDatum.depth ≤ Json.maxDepth →
      ∀ o, ofDocument d.entries = .ok o ↔ ofJson d.entries.toDatum.text = .ok o := by
  intro all
  let d : DistinctDocument :=
    { entries := [("comment",
        .document [("$numberDecimalBytes", .string "abcdefghijklmnop"), ("x", .null)])]
      distinct := by decide }
  let bytes : List UInt8 := [97, 98, 99, 100, 101, 102, 103, 104, 105, 106, 107, 108, 109, 110, 111,
    112]
  have noCollation : ∀ v, ("collation", v) ∈ d.entries → v.PlainCollation := by
    intro v member
    simp [d] at member
  have agree := all d (by decide) (by decide) noCollation (by decide)
    { comment := some (.decimal (.ofBytes bytes)) }
  have whole : d.entries.toDatum.Whole := Value.whole_toDatum (.document d.entries) (by decide)
  have refused : ofJson d.entries.toDatum.text = .error (.text .malformed) := by
    rw [ofJson_text whole]
    rfl
  cases refused.symm.trans (agree.1 rfl)

end UpdateOptions
end DocumentCommand
