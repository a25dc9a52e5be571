import DocumentCommand.Proofs.Options.CollationReading
import DocumentCommand.Proofs.Value.JsonReading

/-!
# Options read back from their JSON

The values that options carry lie in five of their fields (`UpdateOptions.values`).  Options whose
values can be read back are read back as a whole (`UpdateOptions.ofJson_rereadable`).
-/

namespace DocumentCommand

open Reading Value
open Json (Cursor Datum)

namespace UpdateOptions

/-- The documents and values that the options carry. -/
def values (o : UpdateOptions) : List Value :=
  (o.arrayFilters.getD []).map .document ++ (o.hint.map .document).toList ++ o.comment.toList
    ++ (o.bindings.map .document).toList ++ (o.sort.map .document).toList

/-- The condition holds everywhere in the values that the options carry. -/
def Everywhere (P : Value → Prop) (o : UpdateOptions) : Prop :=
  ∀ v ∈ o.values, v.Everywhere P

/-- The options with every scalar replaced in the values that they carry. -/
def mapScalars (f : Value → Value) (o : UpdateOptions) : UpdateOptions :=
  { o with
    arrayFilters := o.arrayFilters.map fun ds => ds.map (mapEntries f)
    hint := o.hint.map (mapEntries f)
    comment := o.comment.map (Value.mapScalars f)
    bindings := o.bindings.map (mapEntries f)
    sort := o.sort.map (mapEntries f) }

/-- The options without their comment where that is null. -/
def dropNullComment (o : UpdateOptions) : UpdateOptions :=
  { o with comment := o.comment.filter fun v => !v.isNull }

/-- The fields that hold one document or value. -/
def Field.singles : List Field := [.hint, .comment, .bindings, .sort]

section

variable {P Q : Value → Prop} {o : UpdateOptions}

instance [DecidablePred P] : Decidable (o.Everywhere P) :=
  inferInstanceAs (Decidable (∀ v ∈ o.values, v.Everywhere P))

theorem Everywhere.imp (weaker : ∀ w, P w → Q w) (holds : o.Everywhere P) : o.Everywhere Q := by
  intro v member
  exact (holds v member).imp weaker

theorem Everywhere.and (first : o.Everywhere P) (second : o.Everywhere Q) :
    o.Everywhere fun w => P w ∧ Q w := by
  intro v member
  exact (first v member).and (second v member)

theorem Everywhere.arrayFilters {ds : List Document} (holds : o.Everywhere P)
    (given : o.arrayFilters = some ds) : ∀ d ∈ ds, (Value.document d).Everywhere P := by
  intro d member
  apply holds
  simp [values, given, member]

/-- What stands in the field of a single value is among the values of the options. -/
theorem mem_values {f : Field} {v : Value} (single : f ∈ Field.singles)
    (value : o.fieldValue? f = some v) : v ∈ o.values := by
  cases f with
  | hint | comment | bindings | sort =>
      rw [fieldValue?] at value
      simp [values, value]
  | _ => exact absurd single (by decide)

theorem Everywhere.single {f : Field} {v : Value} (holds : o.Everywhere P)
    (single : f ∈ Field.singles) (value : o.fieldValue? f = some v) : v.Everywhere P :=
  holds v (mem_values single value)

end

end UpdateOptions

/-- Options of which every document is as documents are built, without a name that stands twice. -/
structure DistinctOptions extends UpdateOptions where
  distinct : toUpdateOptions.Everywhere Value.DistinctNames

namespace UpdateOptions

theorem mapScalars_congr {f g : Value → Value} {o : UpdateOptions}
    (same : o.Everywhere fun w => f w = g w) : o.mapScalars f = o.mapScalars g := by
  have document : ∀ {field : Option Document},
      (∀ v, field.map Value.document = some v → v.Everywhere fun w => f w = g w) →
        field.map (mapEntries f) = field.map (mapEntries g) := by
    intro field all
    cases field with
    | none => rfl
    | some d => exact congrArg some (mapEntries_congr d fun _ => (all (.document d) rfl).of_field)
  have comment : o.comment.map (Value.mapScalars f) = o.comment.map (Value.mapScalars g) := by
    cases given : o.comment with
    | none => rfl
    | some v =>
        have inner := same.single (f := .comment) (by decide) given
        exact congrArg some (Value.mapScalars_congr v inner)
  have filters : o.arrayFilters.map (List.map (mapEntries f))
      = o.arrayFilters.map (List.map (mapEntries g)) := by
    cases given : o.arrayFilters with
    | none => rfl
    | some ds =>
        have each := same.arrayFilters given
        exact congrArg some (List.map_congr_left fun d member =>
          mapEntries_congr d fun _ => (each d member).of_field)
  have hint := document fun _ => same.single (f := .hint) (by decide)
  have bindings := document fun _ => same.single (f := .bindings) (by decide)
  have sort := document fun _ => same.single (f := .sort) (by decide)
  rw [mapScalars, mapScalars, comment, filters, hint, bindings, sort]

end UpdateOptions

/-- Reading the compact text of a datum is reading its tree. -/
theorem Json.readText_compact {α : Type} (read : Cursor → Except Problem α) {d : Datum}
    (whole : d.Whole) : readText read d.text = read ⟨maxDepth, d.node⟩ := by
  have scanned := Node.ofText_text d whole
  simp only [readText, scanned]
  cases read ⟨maxDepth, d.node⟩ <;> rfl

/-! ### Wholeness and depth of written records -/

theorem Json.Datum.membersWhole_of_forall {members : List (String × Datum)}
    (whole : ∀ m ∈ members, m.2.Whole) : Datum.MembersWhole members := by
  induction members with
  | nil => trivial
  | cons m rest ih =>
      obtain ⟨first, others⟩ := List.forall_mem_cons.1 whole
      exact ⟨first, ih others⟩

/-- A record of whole values is whole. -/
theorem Document.whole_record {φ : Type} {fields : List φ} {name : φ → String}
    {value? : φ → Option Value} (whole : ∀ f v, value? f = some v → v.toDatum.Whole) :
    (Document.toDatum (fields.filterMap fun f => (value? f).map (name f, ·))).Whole := by
  apply Datum.membersWhole_of_forall
  intro m member
  rw [entriesDatum_eq_map] at member
  obtain ⟨e, entry, rfl⟩ := List.mem_map.1 member
  obtain ⟨f, -, named⟩ := List.mem_filterMap.1 entry
  obtain ⟨v, value, rfl⟩ := Option.map_eq_some_iff.1 named
  exact whole f v value

/-- A value of a record is less deep than the record. -/
theorem Document.depth_lt_record {φ : Type} {fields : List φ} {name : φ → String}
    {value? : φ → Option Value} {f : φ} {v : Value} (member : f ∈ fields)
    (value : value? f = some v) :
    v.toDatum.depth
      < (Document.toDatum (fields.filterMap fun f => (value? f).map (name f, ·))).depth := by
  have entry : (name f, v) ∈ fields.filterMap fun f => (value? f).map (name f, ·) :=
    List.mem_filterMap.2 ⟨f, member, by rw [value, Option.map_some]⟩
  exact Nat.lt_succ_of_le (Json.depth_le_of_mem_fields entry)

theorem Collation.whole_fieldValue? {c : Collation} {f : Field} {v : Value}
    (value : c.fieldValue? f = some v) : v.toDatum.Whole := by
  cases f <;> obtain ⟨a, -, rfl⟩ := Option.map_eq_some_iff.1 value <;> trivial

theorem Collation.whole_toRecord (c : Collation) : c.toRecord.toDatum.Whole :=
  Document.whole_record fun _ _ => whole_fieldValue?

namespace UpdateOptions

theorem Field.mem_all (f : Field) : f ∈ Field.all := by
  cases f <;> decide

theorem whole_fieldValue? {o : UpdateOptions} {f : Field} {v : Value}
    (noDouble : o.Everywhere NotFiniteDouble) (value : o.fieldValue? f = some v) :
    v.toDatum.Whole := by
  cases f with
  | upsert =>
      obtain rfl := Option.some.inj value
      trivial
  | hint | comment | bindings | sort =>
      exact Value.whole_toDatum v (noDouble.single (by decide) value)
  | collation =>
      obtain ⟨c, -, rfl⟩ := Option.map_eq_some_iff.1 value
      exact c.whole_toRecord
  | arrayFilters =>
      obtain ⟨ds, given, rfl⟩ := Option.map_eq_some_iff.1 value
      have items : ∀ w ∈ ds.map Value.document, w.Everywhere NotFiniteDouble := by
        intro w member
        obtain ⟨d, filter, rfl⟩ := List.mem_map.1 member
        exact noDouble.arrayFilters given d filter
      exact whole_toDatum _ (everywhere_array_iff.2 ⟨trivial, items⟩)
  | bypassDocumentValidation | hintString =>
      obtain ⟨a, -, rfl⟩ := Option.map_eq_some_iff.1 value
      trivial

theorem whole_toDatum {o : UpdateOptions} (noDouble : o.Everywhere NotFiniteDouble) :
    o.toDatum.Whole :=
  Document.whole_record fun _ _ => whole_fieldValue? noDouble

/-- The setting that gives a field of the options its own value.  A comment that is null is given as
none at all. -/
def ownSetting? (o : UpdateOptions) : Field → Option Setting
  | .upsert => some (.upsert o.upsert)
  | .bypassDocumentValidation =>
    o.bypassDocumentValidation.map fun b => .bypassDocumentValidation (some b)
  | .collation => o.collation.map fun c => .collation (some c)
  | .arrayFilters => o.arrayFilters.map fun ds => .arrayFilters (some ds)
  | .hint => o.hint.map fun d => .hint (some d)
  | .hintString => o.hintString.map fun s => .hintString (some s)
  | .comment => o.comment.map fun v => .commentValue ((some v).filter fun w => !w.isNull)
  | .bindings => o.bindings.map fun d => .bindings (some d)
  | .sort => o.sort.map fun d => .sort (some d)

/-- The settings of all fields build the options again, but for a comment that is null. -/
theorem ofSettings_ownSetting? (o : UpdateOptions) :
    ofSettings (Field.all.filterMap o.ownSetting?) = o.dropNullComment := by
  rw [ofSettings, foldl_filterMap_setting]
  simp only [Field.all, List.foldl_cons, List.foldl_nil, ownSetting?]
  rw [setAny_map set .bypassDocumentValidation rfl, setAny_map set .collation rfl,
    setAny_map set .arrayFilters rfl, setAny_map set .hint rfl, setAny_map set .hintString rfl,
    setAny_map set .commentValue rfl, setAny_map set .bindings rfl, setAny_map set .sort rfl]
  simp only [Option.bind_fun_some, set, setAny, dropNullComment]
  cases o.comment <;> rfl

/-- The setting that a field of the options is read back as. -/
def setting? (o : UpdateOptions) : Field → Option Setting
  | .upsert => some (.upsert o.upsert)
  | .bypassDocumentValidation =>
    o.bypassDocumentValidation.map fun b => .bypassDocumentValidation (some b)
  | .collation => o.collation.map fun c => .collation (some c)
  | .arrayFilters =>
    o.arrayFilters.map fun ds => .arrayFilters (some (ds.map (mapEntries rereadScalar)))
  | .hint => o.hint.map fun d => .hint (some (mapEntries rereadScalar d))
  | .hintString => o.hintString.map fun s => .hintString (some s)
  | .comment => o.comment.map fun v =>
    .commentValue ((some (v.mapScalars rereadScalar)).filter fun w => !w.isNull)
  | .bindings => o.bindings.map fun d => .bindings (some (mapEntries rereadScalar d))
  | .sort => o.sort.map fun d => .sort (some (mapEntries rereadScalar d))

theorem setting?_eq_none {o : UpdateOptions} {f : Field} (unset : o.fieldValue? f = none) :
    o.setting? f = none := by
  cases f with
  | upsert => cases unset
  | comment => exact Option.map_eq_none_iff.2 unset
  | _ => exact Option.map_eq_none_iff.2 (Option.map_eq_none_iff.1 unset)

theorem setting?_eq_ownSetting? (o : UpdateOptions) :
    o.setting? = (o.mapScalars rereadScalar).ownSetting? := by
  funext f
  cases f <;> simp only [setting?, ownSetting?, mapScalars, Option.map_map] <;> rfl

/-- The settings of written options build what is read back. -/
theorem ofSettings_setting? (o : UpdateOptions) :
    ofSettings (Field.all.filterMap o.setting?) = (o.mapScalars rereadScalar).dropNullComment := by
  rw [setting?_eq_ownSetting?, ofSettings_ownSetting?]

end UpdateOptions

namespace Format

/-- A document that can be read back is read back as the value of a field. -/
theorem optional_document {d : Document} {room : Nat}
    (readable : (Value.document d).Everywhere Rereadable) (deep : d.toDatum.depth ≤ room) :
    Json.format.optional Json.format.document ⟨room, d.toDatum.node⟩
      = .ok (some (mapEntries rereadScalar d)) := by
  have whole := Value.whole_toDatum (.document d) (readable.imp fun _ => Rereadable.notFinite)
  exact optional_node whole Datum.noConfusion (Json.readDocument_toDatum d room readable deep)

theorem optional_documents {ds : List Document} {room : Nat}
    (readable : ∀ d ∈ ds, (Value.document d).Everywhere Rereadable)
    (deep : (Value.documents ds).toDatum.depth ≤ room) :
    Json.format.optional (Json.format.list Json.format.document)
      ⟨room, (Value.documents ds).toDatum.node⟩
        = .ok (some (ds.map (mapEntries rereadScalar))) := by
  have items : ∀ w ∈ ds.map Value.document, w.Everywhere NotFiniteDouble := by
    intro w member
    obtain ⟨d, filter, rfl⟩ := List.mem_map.1 member
    exact (readable d filter).imp fun _ => Rereadable.notFinite
  have whole := Value.whole_toDatum (Value.documents ds) (everywhere_array_iff.2 ⟨trivial, items⟩)
  obtain ⟨r, rfl, shallow⟩ := Json.exists_inner_room deep
  have each : ∀ d ∈ ds, Json.format.document ⟨r, (Value.document d).toDatum.node⟩
      = .ok (mapEntries rereadScalar d) := by
    intro d member
    have inside : Value.document d ∈ ds.map Value.document := List.mem_map_of_mem member
    apply Json.readDocument_toDatum d r (readable d member)
    exact Nat.le_trans (Json.depth_le_of_mem_items inside) shallow
  apply optional_node whole Datum.noConfusion
  have list := Cursor.list_array Json.format.document r (ds.map Value.document)
  rw [List.mapM_map] at list
  exact list.trans (mapM_eq_ok each)

/-- A comment is read back as a value, and as nothing where that value is null. -/
theorem optional_comment {v : Value} {room : Nat} (readable : v.Everywhere Rereadable)
    (deep : v.toDatum.depth ≤ room) :
    Json.format.optional Json.format.value ⟨room, v.toDatum.node⟩
      = .ok ((some (v.mapScalars rereadScalar)).filter fun w => !w.isNull) := by
  have whole := Value.whole_toDatum v (readable.imp fun _ => Rereadable.notFinite)
  have read : Json.format.value ⟨room, v.toDatum.node⟩ = _ :=
    Json.readValue_toDatum v room readable deep
  have null := Value.isNull_mapScalars_iff readable.here.notFinite
  by_cases none : v.toDatum = .null
  · rw [none, Option.filter_some, null.2 none]
    rfl
  · have present : (v.mapScalars rereadScalar).isNull = false := by
      apply Bool.eq_false_iff.2
      intro isNull
      exact none (null.1 isNull)
    rw [optional_node whole none read, Option.filter_some, present]
    rfl

end Format

namespace UpdateOptions

theorem updateField_node {o : UpdateOptions} {f : Field} {v : Value} {room : Nat}
    (readable : o.Everywhere Rereadable) (deep : v.toDatum.depth ≤ room)
    (value : o.fieldValue? f = some v) :
    ∃ s, o.setting? f = some s ∧ Json.format.updateField f ⟨room, v.toDatum.node⟩ = .ok s := by
  cases f with
  | upsert =>
      obtain rfl := Option.some.inj value
      exact ⟨_, rfl, rfl⟩
  | bypassDocumentValidation =>
      obtain ⟨b, given, rfl⟩ := Option.map_eq_some_iff.1 value
      refine ⟨_, by rw [setting?, given]; rfl, ?_⟩
      simp only [Format.updateField, Value.toDatum, Format.optional_bool, map_ok]
  | hintString =>
      obtain ⟨s, given, rfl⟩ := Option.map_eq_some_iff.1 value
      refine ⟨_, by rw [setting?, given]; rfl, ?_⟩
      simp only [Format.updateField, Value.toDatum, Format.optional_string, map_ok]
  | collation =>
      obtain ⟨c, given, rfl⟩ := Option.map_eq_some_iff.1 value
      obtain ⟨r, rfl, -⟩ := Json.exists_inner_room deep
      have read := Format.optional_node c.whole_toRecord Datum.noConfusion
        (Format.collation_toRecord c r)
      refine ⟨_, by rw [setting?, given]; rfl, ?_⟩
      exact congrArg (Setting.collation <$> ·) read
  | arrayFilters =>
      obtain ⟨ds, given, rfl⟩ := Option.map_eq_some_iff.1 value
      have read := Format.optional_documents (readable.arrayFilters given) deep
      refine ⟨_, by rw [setting?, given]; rfl, ?_⟩
      rw [Format.updateField, read, map_ok]
  | hint | bindings | sort =>
      have field := readable.single (by decide) value
      obtain ⟨d, given, rfl⟩ := Option.map_eq_some_iff.1 value
      have read : Json.format.optional Json.format.document
          ⟨room, (Value.document d).toDatum.node⟩ = _ := Format.optional_document field deep
      refine ⟨_, by rw [setting?, given]; rfl, ?_⟩
      rw [Format.updateField, read, map_ok]
  | comment =>
      have read := Format.optional_comment (readable.single (f := .comment) (by decide) value) deep
      refine ⟨_, by rw [setting?, show o.comment = some v from value]; rfl, ?_⟩
      rw [Format.updateField, read, map_ok]

theorem ofJson_text {d : Datum} (whole : d.Whole) :
    ofJson d.text = Json.format.updateOptions ⟨Json.maxDepth, d.node⟩ :=
  Json.readText_compact Json.format.updateOptions whole

/-- Options that can be read back are read back from their JSON text. -/
theorem ofJson_rereadable {o : UpdateOptions} (readable : o.Everywhere Rereadable)
    (deep : o.toDatum.depth ≤ Json.maxDepth) :
    ofJson o.json = .ok (o.mapScalars rereadScalar).dropNullComment := by
  have room : Json.maxDepth = 126 + 1 := rfl
  have whole := whole_toDatum (readable.imp fun _ => Rereadable.notFinite)
  have present : ∀ (f : Field) (v : Value), o.fieldValue? f = some v → ∃ s,
      o.setting? f = some s ∧ Json.format.updateField f ⟨126, v.toDatum.node⟩ = .ok s := by
    intro f v value
    have inner := Nat.lt_of_lt_of_le (Document.depth_lt_record f.mem_all value) deep
    exact updateField_node readable (Nat.le_of_lt_succ inner) value
  obtain ⟨members, record, read⟩ := Format.readRecord_written ⟨Field.all, Field.name⟩ (by decide)
    (by intro f; cases f <;> decide) .updateOptions 126 (fun _ => setting?_eq_none (o := o)) present
  rw [json, ofJson_text whole, Format.updateOptions, toDatum, toRecord, room, record, ok_bind, read,
    ok_bind, pure_eq_ok, ofSettings_setting?]

end UpdateOptions
end DocumentCommand
