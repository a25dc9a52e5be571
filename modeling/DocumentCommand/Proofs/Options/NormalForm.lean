import DocumentCommand.Proofs.Options.JsonReading

/-!
# The normal form of options

One pass through JSON normalises options (`UpdateOptions.normalized`): integers lose their width,
infinities and NaN become null, bytes without a further meaning an array, the options of regular
expressions are sorted, and a comment that is null is dropped.  Nothing else changes as long as no
name is reserved and no double is finite (`UpdateOptions.ofJson_json`).
-/

namespace DocumentCommand

open Reading

namespace UpdateOptions

/-- The options as one pass through JSON leaves them. -/
def normalized (o : UpdateOptions) : UpdateOptions :=
  (o.mapScalars Value.normalizedScalar).dropNullComment

/-- Options without finite doubles come back from their JSON in normal form, when none of the names
in them is reserved and the text is not too deep. -/
theorem ofJson_json (o : DistinctOptions)
    (unreserved : o.Everywhere (Value.Avoids (Marker.all.map Marker.name)))
    (notFinite : o.Everywhere Value.NotFiniteDouble)
    (canonical : o.Everywhere Value.CanonicalDecimal)
    (noNul : o.Everywhere Value.NoNulRegex)
    (shallow : o.toDatum.depth ≤ Json.maxDepth) :
    ofJson o.json = .ok o.normalized := by
  have readable : o.Everywhere Value.Rereadable :=
    ((o.distinct.and unreserved).and (notFinite.and noNul)).imp fun _ ⟨⟨d, u⟩, f, n⟩ => ⟨d, u, f, n⟩
  have unchanged : o.Everywhere fun w => w.rereadScalar = w.normalizedScalar := by
    refine canonical.imp fun w canonical => ?_
    cases w with
    | decimal d => exact congrArg Value.decimal canonical.canonical_eq
    | _ => rfl
  rw [ofJson_rereadable readable shallow, mapScalars_congr unchanged, normalized]

/-- Options with every field set, whose values hold all that changes on the way through JSON. -/
def everyKind : DistinctOptions where
  upsert := true
  bypassDocumentValidation := some false
  collation := some { locale := some "fr", strength := some .secondary, backwards := some true }
  arrayFilters := some [[("a", .int64 7), ("b", .double ⟨0x7ff8000000000000⟩)], []]
  hint := some [("k", .binary Value.genericSubtype [1, 255])]
  hintString := some "k_1"
  comment := some (.double ⟨0x7ff0000000000000⟩)
  bindings := some [("re", .regex "^\"a" "xi"), ("f", .codeWithScope "g" [("n", .int32 (-1))])]
  sort := some [("d", .decimal (.ofParts true (.finite 15 (-1)))), ("$", .array [.minKey, .null])]
  distinct := by decide

theorem ofJson_json_everyKind :
    everyKind.Everywhere (Value.Avoids (Marker.all.map Marker.name)) ∧
      everyKind.Everywhere Value.NotFiniteDouble ∧ everyKind.Everywhere Value.CanonicalDecimal ∧
      everyKind.Everywhere Value.NoNulRegex ∧ everyKind.toDatum.depth ≤ Json.maxDepth ∧
      ofJson everyKind.json = .ok everyKind.normalized := by
  have unreserved : everyKind.Everywhere (Value.Avoids (Marker.all.map Marker.name)) := by decide
  have notFinite : everyKind.Everywhere Value.NotFiniteDouble := by decide
  have canonical : everyKind.Everywhere Value.CanonicalDecimal := by decide
  have noNul : everyKind.Everywhere Value.NoNulRegex := by decide
  have shallow : everyKind.toDatum.depth ≤ Json.maxDepth := by decide
  exact ⟨unreserved, notFinite, canonical, noNul, shallow,
    ofJson_json everyKind unreserved notFinite canonical noNul shallow⟩

/-- The name for the bytes of a decimal number is reserved as well: options in which it stands are
not read back, though they keep to everything else. -/
theorem not_ofJson_json_of_decimalBytes : ¬ ∀ o : DistinctOptions,
    o.Everywhere
        (Value.Avoids ((Marker.all.filter (· ≠ .typed .decimalBytes)).map Marker.name)) →
      o.Everywhere Value.NotFiniteDouble → o.Everywhere Value.CanonicalDecimal →
      o.Everywhere Value.NoNulRegex → o.toDatum.depth ≤ Json.maxDepth →
      ofJson o.json = .ok o.normalized := by
  intro all
  let o : DistinctOptions :=
    { comment := some (.document [("$numberDecimalBytes", .null)]), distinct := by decide }
  have refused : ofJson o.json = .error (.data (.type .null .extended)) := by
    rw [json, ofJson_text (whole_toDatum (by decide))]
    rfl
  have accepted := all o (by decide) (by decide) (by decide) (by decide) (by decide)
  cases refused.symm.trans accepted

end UpdateOptions
end DocumentCommand
