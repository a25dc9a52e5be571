import DocumentCommand.Proofs.Options.ReadImage

/-!
# Reading settles after one pass

Options that were read and hold no double are written as JSON that reads back as options with the
same JSON (`UpdateOptions.ofJson_settles`).  The second reading changes scalars as
`Value.settledScalar` says, and a third changes nothing.
-/

namespace DocumentCommand

open Reading

namespace Value

/-- A scalar as it is after it has been written and read again: integers have the width that is
read without one, bytes without a further meaning are an array, and decimal numbers are in canonical
packing. -/
def settledScalar : Value → Value
  | .decimal d => .decimal d.canonical
  | v => v.plainScalar

theorem toDatum_ofInteger {n : Int} (least : Int64.minValue.toInt ≤ n)
    (greatest : n ≤ Int64.maxValue.toInt) : (ofInteger n).toDatum = .integer n := by
  rw [ofInteger]
  split
  · next small =>
      have word : Integer.int32? n = some (Int32.ofInt n) := by
        have least : Int32.minValue.toInt ≤ 0 := by decide
        exact if_pos ⟨by omega, small.2⟩
      rw [toDatum, Integer.int32?_eq_some_iff.1 word]
  · have word : Integer.int64? n = some (Int64.ofInt n) := if_pos ⟨least, greatest⟩
    rw [toDatum, Integer.int64?_eq_some_iff.1 word]

/-- A byte is a small integer. -/
theorem toInt_ofNat_byte (b : UInt8) : (Int32.ofNat b.toNat).toInt = b.toNat := by
  have small := b.toNat_lt
  exact Int32.toInt_ofNat_of_lt (by omega)

/-- Written again, a settled scalar gives the same JSON. -/
theorem toDatum_settledScalar (v : Value) : v.settledScalar.toDatum = v.toDatum := by
  cases v with
  | int32 n =>
      have least : Int64.minValue.toInt ≤ Int32.minValue.toInt := by decide
      have greatest : Int32.maxValue.toInt ≤ Int64.maxValue.toInt := by decide
      exact toDatum_ofInteger (Int.le_trans least n.minValue_le_toInt)
        (Int.le_trans n.toInt_le greatest)
  | int64 n => exact toDatum_ofInteger n.minValue_le_toInt n.toInt_le
  | decimal d => rw [settledScalar, toDatum, toDatum, d.text_canonical]
  | binary subtype bytes =>
      by_cases generic : subtype = genericSubtype
      · simp only [settledScalar, plainScalar, generic, if_true, toDatum, itemsDatum_eq_map,
          List.map_map, bytesDatum, Function.comp_def, toInt_ofNat_byte]
      · simp only [settledScalar, plainScalar, generic, if_false]
  | _ => rfl

mutual

/-- Replacing scalars by others with the same JSON keeps the JSON. -/
theorem toDatum_mapScalars {f : Value → Value} (kept : ∀ v, (f v).toDatum = v.toDatum) :
    ∀ v : Value, (v.mapScalars f).toDatum = v.toDatum
  | .null | .bool _ | .int32 _ | .int64 _ | .double _ | .string _ | .objectId _ | .instant _
  | .binary _ _ | .regex _ _ | .timestamp _ _ | .decimal _ | .symbol _ | .code _ | .pointer _ _
  | .undefined | .minKey | .maxKey => kept _
  | .array items => by
      rw [mapScalars, toDatum, toDatum, itemsDatum_mapItems kept items]
  | .document entries => by
      rw [mapScalars, toDatum, toDatum, entriesDatum_mapEntries kept entries]
  | .codeWithScope source scope => by
      rw [mapScalars, toDatum, toDatum, entriesDatum_mapEntries kept scope]

theorem itemsDatum_mapItems {f : Value → Value} (kept : ∀ v, (f v).toDatum = v.toDatum) :
    ∀ items : List Value, itemsDatum (mapItems f items) = itemsDatum items
  | [] => rfl
  | v :: rest => by
      rw [mapItems, itemsDatum, itemsDatum, toDatum_mapScalars kept v,
        itemsDatum_mapItems kept rest]

theorem entriesDatum_mapEntries {f : Value → Value} (kept : ∀ v, (f v).toDatum = v.toDatum) :
    ∀ entries : List (String × Value), entriesDatum (mapEntries f entries) = entriesDatum entries
  | [] => rfl
  | (name, v) :: rest => by
      rw [mapEntries, entriesDatum, entriesDatum, toDatum_mapScalars kept v,
        entriesDatum_mapEntries kept rest]

end

theorem NotDouble.notFinite {v : Value} (noDouble : v.NotDouble) : v.NotFiniteDouble := by
  cases v with
  | double x => exact noDouble.elim
  | _ => trivial

/-- Only null is written as null, doubles apart. -/
theorem eq_null_of_toDatum {v : Value} (noDouble : v.NotDouble) (written : v.toDatum = .null) :
    v = .null := by
  cases v with
  | null => rfl
  | double x => exact noDouble.elim
  | binary subtype bytes =>
      rw [toDatum] at written
      split at written
      · cases written
      · cases written
  | _ => cases written

/-- What is read back of a scalar that was read. -/
theorem rereadScalar_eq_settledScalar {v : Value} (sorted : v.SortedRegex)
    (noDouble : v.NotDouble) : v.rereadScalar = v.settledScalar := by
  cases v with
  | double x => exact noDouble.elim
  | regex pattern options => exact congrArg (regex pattern) (sortedOptions_eq sorted)
  | _ => rfl

end Value

namespace UpdateOptions

/-- The JSON of options field by field. -/
theorem toDatum_eq (o : UpdateOptions) :
    o.toDatum = .object (Field.all.filterMap fun f =>
      ((o.fieldValue? f).map Value.toDatum).map (f.name, ·)) := by
  rw [toDatum, toRecord, Document.toDatum, Value.entriesDatum_eq_map, List.map_filterMap]
  simp only [Option.map_map, Function.comp_def]

/-- Replacing scalars by others with the same JSON keeps the JSON of options. -/
theorem toDatum_mapScalars {f : Value → Value} (kept : ∀ v, (f v).toDatum = v.toDatum)
    (o : UpdateOptions) : (o.mapScalars f).toDatum = o.toDatum := by
  have each : ∀ field : Field, ((o.mapScalars f).fieldValue? field).map Value.toDatum
      = (o.fieldValue? field).map Value.toDatum := by
    intro field
    cases field with
    | upsert | bypassDocumentValidation | collation | hintString => rfl
    | arrayFilters =>
        simp only [fieldValue?, mapScalars, Option.map_map, Function.comp_def, Value.documents,
          Value.toDatum, Value.itemsDatum_eq_map, List.map_map,
          Value.entriesDatum_mapEntries kept]
    | hint | bindings | sort =>
        simp only [fieldValue?, mapScalars, Option.map_map, Function.comp_def, Value.toDatum,
          Value.entriesDatum_mapEntries kept]
    | comment =>
        simp only [fieldValue?, mapScalars, Option.map_map, Function.comp_def,
          Value.toDatum_mapScalars kept]
  rw [toDatum_eq, toDatum_eq]
  simp only [each]

/-- The options as they are after they have been written and read again. -/
def settled (o : UpdateOptions) : UpdateOptions :=
  o.mapScalars Value.settledScalar

/-- A comment that is not null stays so. -/
theorem dropNullComment_settled {o : UpdateOptions} (noDouble : o.Everywhere Value.NotDouble)
    (sorted : o.Everywhere Value.SortedRegex) (solid : o.comment ≠ some .null) :
    o.settled.dropNullComment = o.settled := by
  have kept : o.settled.comment.filter (fun v => !v.isNull) = o.settled.comment := by
    rw [settled, mapScalars]
    cases given : o.comment with
    | none => rfl
    | some v =>
        have single := noDouble.single (f := .comment) (by decide) given
        have ordered := sorted.single (f := .comment) (by decide) given
        have null := Value.isNull_mapScalars_iff single.here.notFinite
        have same := Value.mapScalars_congr v ((ordered.and single).imp fun _ both =>
          Value.rereadScalar_eq_settledScalar both.1 both.2)
        have present : (v.mapScalars Value.settledScalar).isNull = false := by
          rw [← same]
          apply Bool.eq_false_iff.2
          intro isNull
          have none := Value.eq_null_of_toDatum single.here (null.1 isNull)
          exact solid (given.trans (congrArg some none))
        simp [present]
  rw [dropNullComment, kept]

/-- Options that were read have no reserved name in them, no comment that is null and the options of
regular expressions sorted.  If they hold no double and their text is not too deep, what is read
back has the same text, and is read back as it is. -/
theorem ofJson_settles {text : List Char} {o : UpdateOptions} (accepted : ofJson text = .ok o) :
    (o.Everywhere (Value.Avoids (Marker.all.map Marker.name)) ∧ o.comment ≠ some .null ∧
      o.Everywhere Value.SortedRegex) ∧
    (o.Everywhere Value.NotDouble → o.toDatum.depth ≤ Json.maxDepth →
      ofJson o.json = .ok o.settled ∧ o.settled.json = o.json ∧
        ofJson o.settled.json = .ok o.settled) := by
  have order := isSettled_of_ofJson accepted
  have unreserved := order.values.imp fun _ => Value.Settled.unreserved
  have sorted := order.values.imp fun _ => Value.Settled.sorted
  constructor
  · exact ⟨unreserved, order.comment, sorted⟩
  intro noDouble shallow
  -- What was read can be read back, but for its doubles.
  have readable : o.Everywhere Value.Rereadable :=
    (order.values.and noDouble).imp fun _ both =>
      ⟨both.1.distinct, both.1.unreserved, both.2.notFinite, both.1.noNul⟩
  have unchanged : o.Everywhere fun v => v.rereadScalar = v.settledScalar :=
    (sorted.and noDouble).imp fun _ both =>
      Value.rereadScalar_eq_settledScalar both.1 both.2
  have json : o.settled.json = o.json :=
    congrArg Json.Datum.text (toDatum_mapScalars Value.toDatum_settledScalar o)
  have read : ofJson o.json = .ok o.settled := by
    rw [ofJson_rereadable readable shallow, mapScalars_congr unchanged, ← settled,
      dropNullComment_settled noDouble sorted order.comment]
  exact ⟨read, json, json ▸ read⟩

/-- A text with values under reserved names, one of them the bytes of a decimal number. -/
def markedText : Json.Datum :=
  .object [("upsert", .bool true),
    ("hint", .object [("a", .integer (-1)), ("b", .object [("$numberInt", .string "-3")])]),
    ("comment", .object [("$numberDecimalBytes", .string "abcdefghijklmnop")]),
    ("let", .object [("r", .object [("dropped", .null), ("$regularExpression",
      .object [("options", .string "xi"), ("pattern", .string "^a")])])])]

/-- The options that the text writes. -/
def marked : UpdateOptions where
  upsert := true
  hint := some [("a", .int64 (-1)), ("b", .int32 (-3))]
  comment := some (.decimal (.ofBytes [97, 98, 99, 100, 101, 102, 103, 104, 105, 106, 107, 108,
    109, 110, 111, 112]))
  bindings := some [("r", .regex "^a" (sortedOptions "xi"))]

theorem ofJson_markedText : ofJson markedText.text = .ok marked := by
  have whole : markedText.Whole := by
    simp only [markedText, Json.Datum.Whole, Json.Datum.MembersWhole, and_self]
  rw [ofJson_text whole]
  rfl

theorem ofJson_settles_marked :
    ofJson markedText.text = .ok marked ∧ marked.Everywhere Value.NotDouble ∧
      marked.toDatum.depth ≤ Json.maxDepth ∧
      (marked.Everywhere (Value.Avoids (Marker.all.map Marker.name)) ∧
        marked.comment ≠ some .null ∧ marked.Everywhere Value.SortedRegex) ∧
      ofJson marked.json = .ok marked.settled ∧ marked.settled.json = marked.json ∧
        ofJson marked.settled.json = .ok marked.settled := by
  have noDouble : marked.Everywhere Value.NotDouble := by decide
  have shallow : marked.toDatum.depth ≤ Json.maxDepth := by decide
  obtain ⟨order, settles⟩ := ofJson_settles ofJson_markedText
  exact ⟨ofJson_markedText, noDouble, shallow, order, settles noDouble shallow⟩

/-- Decimal numbers other than NaN may change their bits as well when they are read again: bytes
under their reserved name need not be in canonical packing. -/
theorem not_ofJson_keeps_decimals : ¬ ∀ (text : List Char) (o : UpdateOptions),
    ofJson text = .ok o → o.Everywhere Value.NotDouble → o.toDatum.depth ≤ Json.maxDepth →
      ∃ again, ofJson o.json = .ok again ∧
        ∀ d : Decimal128, (∀ signalling, d.magnitude ≠ .nan signalling) →
          o.comment = some (.decimal d) → again.comment = some (.decimal d) := by
  intro all
  let d := Decimal128.ofBytes [97, 98, 99, 100, 101, 102, 103, 104, 105, 106, 107, 108, 109, 110,
    111, 112]
  let o : UpdateOptions := { comment := some (.decimal d) }
  have whole : (Json.Datum.object [("comment",
      .object [("$numberDecimalBytes", .string "abcdefghijklmnop")])]).Whole := by
    simp only [Json.Datum.Whole, Json.Datum.MembersWhole, and_self]
  have accepted := ofJson_text whole
  obtain ⟨again, reread, kept⟩ := all _ o (accepted.trans rfl) (by decide) (by decide)
  have changed : ofJson o.json = .ok { o with comment := some (.decimal d.canonical) } :=
    ofJson_rereadable (by decide) (by decide)
  have same := kept d (by decide) rfl
  cases reread.symm.trans changed
  have bits : d.canonical = d := Value.decimal.inj (Option.some.inj same)
  exact absurd bits (by decide)

end UpdateOptions
end DocumentCommand
