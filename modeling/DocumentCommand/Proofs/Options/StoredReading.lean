import DocumentCommand.Proofs.Options.NormalForm
import DocumentCommand.Proofs.Value.StoredReading

/-!
# Options stored and read back

A document that holds the options is read back as the options (`UpdateOptions.ofDocument_stored`).
The values in it come back as they do on their own, typed as they were, and a comment that is null
comes back as none.  A collation comes back unchanged (`Format.collation_stored`).
-/

namespace DocumentCommand

open Reading Value

namespace Format

/-- A record that is stored field by field is read field by field. -/
theorem readRecord_stored {φ σ : Type} [DecidableEq φ] (F : Fields φ) (distinct : F.order.Nodup)
    (known : ∀ f, F.find? (F.name f) = some f) (wanted : Wanted)
    {read : φ → Value → Except Problem σ} {unknown : String → Value → Except Problem Unit}
    {value? : φ → Option Value} {setting? : φ → Option σ}
    (absent : ∀ f, value? f = none → setting? f = none)
    (present : ∀ f v, value? f = some v → ∃ s, setting? f = some s ∧ read f v = .ok s) :
    ∃ members, Value.format.record wanted
        (.document (F.order.filterMap fun f => (value? f).map (F.name f, ·))) = .ok members ∧
      F.readRecord read unknown members = .ok (F.order.filterMap setting?) := by
  refine ⟨_, rfl, ?_⟩
  rw [Fields.readRecord, List.map_filterMap]
  simp only [Option.map_map]
  apply Fields.readNamed_filterMap F rfl (fun f _ => known f) absent present F.order [] distinct
  exact fun _ _ => List.not_mem_nil

end Format

/-! ### Collations -/

namespace Format

theorem choice_value {α : Type} [Named α] [Named.Faithful α] (a : α) :
    Value.format.choice α (.string (Named.name a)) = .ok a := by
  have known : (Named.names α).contains (Named.name a) = true :=
    List.contains_iff_mem.2 (Named.mem_names a)
  have named : Value.format.variant (Named.names α) (.string (Named.name a)) = .ok (Named.name a) :=
    if_pos known
  simp only [choice, named, ok_bind, Named.Faithful.ofName?_name, pure_eq_ok]

theorem strength_value (s : Strength) : Value.format.strength (.int32 s.level) = .ok s := by
  cases s <;> rfl

end Format

namespace Collation

theorem storedEntries_toRecord (c : Collation) : storedEntries c.toRecord = c.toRecord := by
  apply storedEntries_eq_self
  apply Document.forall_mem_record
  intro f _ v value
  cases f <;> obtain ⟨a, -, rfl⟩ := Option.map_eq_some_iff.1 value <;> rfl

/-- A collation is stored as the record that it is. -/
theorem stored_toRecord (c : Collation) :
    (Value.document c.toRecord).stored = .document c.toRecord := by
  have unreserved : ∀ name ∈ c.toRecord.names, name ∉ Marker.all.map Marker.name := by
    have ofFields : ∀ name ∈ Field.all.map Field.name, name ∉ Marker.all.map Marker.name := by
      decide
    intro name member
    have fields := Document.names_record_sublist Field.all Field.name c.fieldValue?
    exact ofFields name (fields.subset member)
  rw [stored, storedEntries_toRecord, ofDocument_of_unreserved unreserved]

theorem collationField_value {c : Collation} {f : Field} {v : Value}
    (value : c.fieldValue? f = some v) :
    ∃ s, c.setting? f = some s ∧ Value.format.collationField f v = .ok s := by
  cases f <;> obtain ⟨a, given, rfl⟩ := Option.map_eq_some_iff.1 value <;>
    refine ⟨_, by rw [setting?, given]; rfl, ?_⟩
  case locale | caseLevel | numericOrdering | normalization | backwards => rfl
  case strength =>
      rw [Format.collationField, Format.optional_value rfl (Format.strength_value a), map_ok]
  case caseFirst | alternate | maxVariable =>
      rw [Format.collationField, Format.optional_value rfl (Format.choice_value a), map_ok]

end Collation

/-- A collation comes back as it was stored. -/
theorem Format.collation_stored (c : Collation) :
    Value.format.collation (.document c.toRecord) = .ok c := by
  obtain ⟨members, record, read⟩ := Format.readRecord_stored
    ⟨Collation.Field.all, Collation.Field.name⟩ (by decide) (by intro f; cases f <;> decide)
    .collation (fun _ => Collation.setting?_eq_none (c := c))
    (fun _ _ => Collation.collationField_value)
  rw [Format.collation, Collation.toRecord, record, ok_bind, read, ok_bind, pure_eq_ok,
    Collation.ofSettings_setting?]

namespace Value

theorem isNull_storedScalar (v : Value) : v.storedScalar.isNull = v.isNull := by
  cases v <;> rfl

theorem isNull_carriedScalar (v : Value) : v.carriedScalar.isNull = v.isNull := by
  cases v <;> rfl

theorem carriedScalar_eq_sortedScalar {v : Value} (canonical : v.CanonicalDecimal)
    (withinYears : v.WithinYears) : v.carriedScalar = v.sortedScalar := by
  cases v with
  | decimal d => exact congrArg decimal canonical.canonical_eq
  | instant t => exact congrArg instant (Instant.withinYears_eq withinYears)
  | _ => rfl

end Value

namespace Format

/-- A document that can be stored and read again comes back as the value of a field. -/
theorem optional_document_stored {d : Document}
    (carriable : (Value.document d).Everywhere Carriable) :
    Value.format.optional Value.format.document (Value.document d).stored
      = .ok (some (mapEntries carriedScalar d)) := by
  have stored := stored_eq_mapScalars (.document d) (carriable.imp fun _ => Carriable.storable)
  apply optional_value
  · rw [stored, mapScalars]
    rfl
  · exact readDocument_stored carriable

/-- Documents that can be stored and read again come back as the value of a field. -/
theorem optional_documents_stored {ds : List Document}
    (carriable : ∀ d ∈ ds, (Value.document d).Everywhere Carriable) :
    Value.format.optional (Value.format.list Value.format.document) (Value.documents ds).stored
      = .ok (some (ds.map (mapEntries carriedScalar))) := by
  apply optional_value
  · rfl
  · rw [documents, Value.stored, list_array, storedItems_eq_map, List.map_map, List.mapM_map]
    apply mapM_eq_ok
    intro d member
    exact readDocument_stored (carriable d member)

/-- A comment comes back as a value, and as nothing where it is null. -/
theorem optional_comment_stored {v : Value} (carriable : v.Everywhere Carriable) :
    Value.format.optional Value.format.value v.stored
      = .ok ((some (v.mapScalars carriedScalar)).filter fun w => !w.isNull) := by
  have null : v.stored.isNull = v.isNull := by
    rw [stored_eq_mapScalars v (carriable.imp fun _ => Carriable.storable),
      isNull_mapScalars isNull_storedScalar]
  rw [Option.filter_some, isNull_mapScalars isNull_carriedScalar]
  cases solid : v.isNull with
  | true =>
      have asked : Value.format.isNull v.stored = .ok true := congrArg Except.ok (null.trans solid)
      rw [Source.optional, asked]
      rfl
  | false => exact optional_value (null.trans solid) (read_stored carriable)

end Format

namespace UpdateOptions

theorem ownSetting?_mapScalars_eq_none {o : UpdateOptions} {f : Field} (g : Value → Value)
    (unset : o.fieldValue? f = none) : (o.mapScalars g).ownSetting? f = none := by
  cases f with
  | upsert => cases unset
  | comment =>
      have absent : o.comment = none := unset
      rw [ownSetting?, mapScalars, absent]
      rfl
  | _ =>
      have absent := Option.map_eq_none_iff.1 unset
      rw [ownSetting?, mapScalars, absent]
      rfl

/-- What is stored in a field is read back as the setting of that field. -/
theorem updateField_stored {o : UpdateOptions} {f : Field} {v : Value}
    (carriable : o.Everywhere Carriable) (value : o.fieldValue? f = some v) :
    ∃ s, (o.mapScalars carriedScalar).ownSetting? f = some s ∧
      Value.format.updateField f v.stored = .ok s := by
  cases f with
  | upsert =>
      obtain rfl := Option.some.inj value
      exact ⟨_, rfl, rfl⟩
  | bypassDocumentValidation | hintString =>
      obtain ⟨a, given, rfl⟩ := Option.map_eq_some_iff.1 value
      exact ⟨_, by rw [ownSetting?, mapScalars, given]; rfl, rfl⟩
  | collation =>
      obtain ⟨c, given, rfl⟩ := Option.map_eq_some_iff.1 value
      have read := Format.optional_value rfl (Format.collation_stored c)
      refine ⟨_, by rw [ownSetting?, mapScalars, given]; rfl, ?_⟩
      rw [Format.updateField, c.stored_toRecord, read, map_ok]
  | arrayFilters =>
      obtain ⟨ds, given, rfl⟩ := Option.map_eq_some_iff.1 value
      have read := Format.optional_documents_stored (carriable.arrayFilters given)
      refine ⟨_, by rw [ownSetting?, mapScalars, given]; rfl, ?_⟩
      rw [Format.updateField, read, map_ok]
  | hint | bindings | sort =>
      have field := carriable.single (by decide) value
      obtain ⟨d, given, rfl⟩ := Option.map_eq_some_iff.1 value
      have read := Format.optional_document_stored field
      refine ⟨_, by rw [ownSetting?, mapScalars, given]; rfl, ?_⟩
      rw [Format.updateField, read, map_ok]
  | comment =>
      have given : o.comment = some v := value
      have field := carriable.single (f := .comment) (by decide) value
      have read := Format.optional_comment_stored field
      refine ⟨_, by rw [ownSetting?, mapScalars, given]; rfl, ?_⟩
      rw [Format.updateField, read, map_ok]

/-- Options that can be stored and read again come back as they were, but for scalars that change on
the way and a comment that is null. -/
theorem ofDocument_carriable {o : UpdateOptions} (carriable : o.Everywhere Carriable) :
    ofDocument o.stored = .ok (o.mapScalars carriedScalar).dropNullComment := by
  have written : o.stored
      = Field.all.filterMap fun f => ((o.fieldValue? f).map Value.stored).map (f.name, ·) := by
    rw [stored, toRecord, storedEntries_eq_map, List.map_filterMap]
    simp only [Option.map_map, Function.comp_def]
  have absent : ∀ f, (o.fieldValue? f).map Value.stored = none →
      (o.mapScalars carriedScalar).ownSetting? f = none := by
    intro f unset
    exact ownSetting?_mapScalars_eq_none _ (Option.map_eq_none_iff.1 unset)
  have present : ∀ f w, (o.fieldValue? f).map Value.stored = some w → ∃ s,
      (o.mapScalars carriedScalar).ownSetting? f = some s ∧
        Value.format.updateField f w = .ok s := by
    intro f w stored
    obtain ⟨v, value, rfl⟩ := Option.map_eq_some_iff.1 stored
    exact updateField_stored carriable value
  obtain ⟨members, record, read⟩ := Format.readRecord_stored ⟨Field.all, Field.name⟩ (by decide)
    (by intro f; cases f <;> decide) .updateOptions absent present
  rw [ofDocument, Format.updateOptions, written, record, ok_bind, read, ok_bind, pure_eq_ok,
    ofSettings_ownSetting?]

theorem Everywhere.carriable {o : UpdateOptions} (distinct : o.Everywhere Value.DistinctNames)
    (unreserved : o.Everywhere (Value.Avoids (Marker.all.map Marker.name)))
    (noNul : o.Everywhere Value.NoNulRegex) : o.Everywhere Carriable :=
  ((distinct.and unreserved).and noNul).imp fun _ ⟨⟨d, u⟩, n⟩ => ⟨d, u, n⟩

/-- The options come back with the options of regular expressions sorted and without a comment that
is null, and are what they were in all else. -/
def Returns (o : UpdateOptions) : Prop :=
  ofDocument o.stored = .ok (o.mapScalars sortedScalar).dropNullComment

/-- Options without reserved names are read back from the document that they are stored as.  Three
kinds of scalars change on the way (`Value.carriedScalar`), and only regular expressions do when all
decimal numbers are in canonical packing and no instant has a year of more than four digits.  That
no regular expression holds a NUL says no more than that the values are well formed: the parts of a
regular expression end at a NUL. -/
theorem ofDocument_stored (o : DistinctOptions)
    (unreserved : o.Everywhere (Value.Avoids (Marker.all.map Marker.name)))
    (noNul : o.Everywhere Value.NoNulRegex) :
    ofDocument o.stored = .ok (o.mapScalars carriedScalar).dropNullComment ∧
      (o.Everywhere Value.CanonicalDecimal → o.Everywhere Value.WithinYears → o.Returns) := by
  have read := ofDocument_carriable (Everywhere.carriable o.distinct unreserved noNul)
  constructor
  · exact read
  · intro canonical withinYears
    have onlySorted : o.Everywhere fun v => v.carriedScalar = v.sortedScalar :=
      (canonical.and withinYears).imp fun v both => carriedScalar_eq_sortedScalar both.1 both.2
    rw [Returns, read, mapScalars_congr onlySorted]

theorem ofDocument_stored_everyKind :
    everyKind.Everywhere (Value.Avoids (Marker.all.map Marker.name)) ∧
      everyKind.Everywhere Value.NoNulRegex ∧
      ofDocument everyKind.stored = .ok (everyKind.mapScalars carriedScalar).dropNullComment ∧
      everyKind.Everywhere Value.CanonicalDecimal ∧ everyKind.Everywhere Value.WithinYears ∧
      everyKind.Returns := by
  have unreserved : everyKind.Everywhere (Value.Avoids (Marker.all.map Marker.name)) := by decide
  have noNul : everyKind.Everywhere Value.NoNulRegex := by decide
  have canonical : everyKind.Everywhere Value.CanonicalDecimal := by decide
  have withinYears : everyKind.Everywhere Value.WithinYears := by decide
  obtain ⟨carried, returns⟩ := ofDocument_stored everyKind unreserved noNul
  exact ⟨unreserved, noNul, carried, canonical, withinYears,
    returns canonical withinYears⟩

/-- Each condition is needed: an instant after the year 9999, a decimal number in another packing
and the reserved name for the bytes of a decimal number all keep options from coming back. -/
theorem not_returns_without_conditions :
    (¬ ∀ o : DistinctOptions,
      o.Everywhere (Value.Avoids (Marker.all.map Marker.name)) → o.Everywhere Value.NoNulRegex →
      o.Everywhere Value.CanonicalDecimal → o.Returns) ∧
    (¬ ∀ o : DistinctOptions,
      o.Everywhere (Value.Avoids (Marker.all.map Marker.name)) → o.Everywhere Value.NoNulRegex →
      o.Everywhere Value.WithinYears → o.Returns) ∧
    (¬ ∀ o : DistinctOptions,
      o.Everywhere
        (Value.Avoids ((Marker.all.filter (· ≠ .typed .decimalBytes)).map Marker.name)) →
      o.Everywhere Value.NoNulRegex → o.Everywhere Value.CanonicalDecimal →
      o.Everywhere Value.WithinYears → o.Returns) := by
  refine ⟨?late, ?packing, ?reserved⟩
  case late =>
    intro all
    let o : DistinctOptions :=
      { comment := some (.instant ⟨253402300800000⟩), distinct := by decide }
    let last : UpdateOptions := { comment := some (.instant Instant.latestWritten) }
    have moved : ofDocument o.stored = .ok last := rfl
    have returned := all o (by decide) (by decide) (by decide)
    have comment := congrArg UpdateOptions.comment (Except.ok.inj (moved.symm.trans returned))
    cases comment
  case packing =>
    intro all
    let d := Decimal128.ofParts true (.nan false)
    let o : DistinctOptions := { comment := some (.decimal d), distinct := by decide }
    have repacked : ofDocument o.stored = .ok { comment := some (.decimal d.canonical) } :=
      ofDocument_carriable (Everywhere.carriable o.distinct (by decide) (by decide))
    have returned := all o (by decide) (by decide) (by decide)
    have comment := congrArg UpdateOptions.comment (Except.ok.inj (repacked.symm.trans returned))
    have bits : d.canonical = d := Value.decimal.inj (Option.some.inj comment)
    exact absurd bits (by decide)
  case reserved =>
    intro all
    let o : DistinctOptions :=
      { comment := some (.document [("$numberDecimalBytes", .null)]), distinct := by decide }
    have refused : ofDocument o.stored = .error (.data (.type .null .extended)) := rfl
    have returned := all o (by decide) (by decide) (by decide) (by decide)
    cases refused.symm.trans returned

end UpdateOptions
end DocumentCommand
