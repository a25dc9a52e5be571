import DocumentCommand.Options.Reading
import DocumentCommand.Proofs.Value.Lookup
import DocumentCommand.Proofs.Value.ReadImage
import DocumentCommand.Value.Stored

/-!
# Values stored and read back

Where no name is reserved, storing a value changes scalars only (`Value.stored_eq_mapScalars`), and
so does reading one (`Value.read_mapScalars`).  A value that is stored and read again is what it
was, but for three kinds of scalars (`Value.read_stored`): the options of regular expressions are
sorted, decimal numbers are in canonical packing, and an instant after the year 9999 has become the
last one within it.
-/

namespace DocumentCommand

open Reading

theorem Decimal128.throughText_eq_canonical (d : Decimal128) : d.throughText = d.canonical := by
  rw [throughText, read?_text, Option.getD_some]

theorem Instant.withinYears_eq {t : Instant}
    (early : t.milliseconds ≤ Instant.latestWritten.milliseconds) : t.withinYears = t :=
  if_neg (Int64.not_lt.2 early)

theorem Marker.mem_all (m : Marker) : m ∈ Marker.all :=
  List.mem_of_find?_eq_some (Marker.ofKey?_name m)

namespace Value

/-- If it is an instant, its year has at most four digits. -/
def WithinYears : Value → Prop
  | .instant t => t.milliseconds ≤ Instant.latestWritten.milliseconds
  | _ => True

instance : DecidablePred WithinYears
  | .instant t => inferInstanceAs (Decidable (t.milliseconds ≤ Instant.latestWritten.milliseconds))
  | .null | .bool _ | .int32 _ | .int64 _ | .double _ | .string _ | .array _ | .document _
  | .objectId _ | .binary _ _ | .regex _ _ | .timestamp _ _ | .decimal _ | .symbol _ | .code _
  | .codeWithScope _ _ | .pointer _ _ | .undefined | .minKey | .maxKey => isTrue trivial

/-- A scalar with its options sorted where it is a regular expression. -/
def sortedScalar : Value → Value
  | .regex pattern options => .regex pattern (sortedOptions options)
  | v => v

/-- A scalar as it is stored. -/
def storedScalar : Value → Value
  | .decimal d => .decimal d.canonical
  | v => v.sortedScalar

/-- A scalar as it comes back after it has been stored. -/
def carriedScalar : Value → Value
  | .instant t => .instant t.withinYears
  | v => v.storedScalar

mutual

/-- Scalars that are replaced by themselves leave the value as it is. -/
theorem mapScalars_self : ∀ v : Value, v.mapScalars (fun w => w) = v
  | .null | .bool _ | .int32 _ | .int64 _ | .double _ | .string _ | .objectId _ | .instant _
  | .binary _ _ | .regex _ _ | .timestamp _ _ | .decimal _ | .symbol _ | .code _ | .pointer _ _
  | .undefined | .minKey | .maxKey => rfl
  | .array items => congrArg array (mapItems_self items)
  | .document entries => congrArg document (mapEntries_self entries)
  | .codeWithScope source scope => congrArg (codeWithScope source) (mapEntries_self scope)

theorem mapItems_self : ∀ items : List Value, mapItems (fun w => w) items = items
  | [] => rfl
  | v :: rest => by rw [mapItems, mapScalars_self v, mapItems_self rest]

theorem mapEntries_self : ∀ entries : List (String × Value),
    mapEntries (fun w => w) entries = entries
  | [] => rfl
  | (name, v) :: rest => by rw [mapEntries, mapScalars_self v, mapEntries_self rest]

end

/-- Replacing scalars makes no value null that was not. -/
theorem isNull_mapScalars {f : Value → Value} (kept : ∀ w, (f w).isNull = w.isNull) (v : Value) :
    (v.mapScalars f).isNull = v.isNull := by
  cases v with
  | array items => rfl
  | document entries => rfl
  | codeWithScope source scope => rfl
  | _ => exact kept _

/-- Scalars that stay what they are leave the value as it is. -/
theorem mapScalars_eq_self {f : Value → Value} {v : Value} (kept : v.Everywhere fun w => f w = w) :
    v.mapScalars f = v :=
  (mapScalars_congr v kept).trans (mapScalars_self v)

/-! ### Storing -/

/-- A document without reserved names writes no other value. -/
theorem ofDocument_of_unreserved {d : Document}
    (unreserved : ∀ name ∈ d.names, name ∉ Marker.all.map Marker.name) :
    ofDocument d = .document d := by
  have absent : ∀ m : Marker, d.get? m.name = none := by
    intro m
    rw [Document.get?_eq_none_iff]
    intro member
    exact unreserved m.name member (List.mem_map_of_mem m.mem_all)
  have noSource : stringField? d Marker.code.name = none := by
    rw [stringField?, absent]
  unfold ofDocument
  split
  · next name v =>
      have plain := Marker.ofKey?_eq_none_iff.2 (unreserved name List.mem_cons_self)
      simp only [plain, Option.getD_none]
  · simp only [noSource, Option.bind_eq_bind, Option.bind_none, Option.getD_none]
  · rfl

theorem storedItems_eq_map (items : List Value) : storedItems items = items.map stored := by
  induction items with
  | nil => rfl
  | cons v rest ih => rw [storedItems, ih, List.map_cons]

theorem storedEntries_eq_map (entries : List (String × Value)) :
    storedEntries entries = entries.map fun e => (e.1, e.2.stored) := by
  induction entries with
  | nil => rfl
  | cons e rest ih => rw [storedEntries, ih, List.map_cons]

/-- Entries whose values are stored as they are, are stored as they are. -/
theorem storedEntries_eq_self {entries : List (String × Value)}
    (kept : ∀ e ∈ entries, e.2.stored = e.2) : storedEntries entries = entries := by
  induction entries with
  | nil => rfl
  | cons e rest ih =>
      obtain ⟨first, others⟩ := List.forall_mem_cons.1 kept
      rw [storedEntries, first, ih others]

theorem names_storedEntries (entries : List (String × Value)) :
    Document.names (storedEntries entries) = Document.names entries := by
  rw [storedEntries_eq_map, Document.names, List.map_map]
  rfl

/-- What a level has to be like so that storing it changes no more than a scalar. -/
structure Storable (v : Value) : Prop where
  unreserved : v.Avoids (Marker.all.map Marker.name)
  noNul : v.NoNulRegex

theorem storedRegex_of_noNul {pattern options : String}
    (noNul : hasNul pattern = false ∧ hasNul options = false) :
    storedRegex pattern options = .regex pattern (sortedOptions options) := by
  simp [storedRegex, regex?, noNul]

/-- A piece of code and its scope are taken for what they are when they are stored. -/
theorem ofDocument_code (source : String) (scope : Document) :
    ofDocument [(Marker.code.name, .string source), (Marker.scope.name, .document scope)]
      = .codeWithScope source scope := rfl

mutual

/-- Without reserved names storing a value changes scalars only. -/
theorem stored_eq_mapScalars : ∀ v : Value, v.Everywhere Storable →
    v.stored = v.mapScalars storedScalar
  | .null, _ | .bool _, _ | .int32 _, _ | .int64 _, _ | .double _, _ | .string _, _
  | .objectId _, _ | .instant _, _ | .binary _ _, _ | .timestamp _ _, _ | .symbol _, _
  | .code _, _ | .pointer _ _, _ | .undefined, _ | .minKey, _ | .maxKey, _ => rfl
  | .regex pattern options, storable => storedRegex_of_noNul storable.here.noNul
  | .decimal d, _ => congrArg decimal d.throughText_eq_canonical
  | .array items, storable =>
      congrArg array (storedItems_eq_mapItems items fun _ => storable.of_item)
  | .document entries, storable => by
      rw [stored, ofDocument_of_unreserved (names_storedEntries entries ▸ storable.here.unreserved),
        storedEntries_eq_mapEntries entries fun _ => storable.of_field]
      rfl
  | .codeWithScope source scope, storable => by
      have inner : ofDocument (storedEntries scope) = .document (storedEntries scope) :=
        ofDocument_of_unreserved (names_storedEntries scope ▸ storable.here.unreserved)
      rw [stored, inner, storedEntries_eq_mapEntries scope fun _ => storable.of_field,
        ofDocument_code]
      rfl

theorem storedItems_eq_mapItems : ∀ items : List Value, (∀ v ∈ items, v.Everywhere Storable) →
    storedItems items = mapItems storedScalar items
  | [], _ => rfl
  | v :: rest, storable => by
      obtain ⟨first, others⟩ := List.forall_mem_cons.1 storable
      rw [storedItems, stored_eq_mapScalars v first, storedItems_eq_mapItems rest others, mapItems]

theorem storedEntries_eq_mapEntries : ∀ entries : List (String × Value),
    (∀ e ∈ entries, e.2.Everywhere Storable) →
      storedEntries entries = mapEntries storedScalar entries
  | [], _ => rfl
  | (name, v) :: rest, storable => by
      obtain ⟨first, others⟩ := List.forall_mem_cons.1 storable
      rw [storedEntries, stored_eq_mapScalars v first, storedEntries_eq_mapEntries rest others,
        mapEntries]

end

/-- What a level has to be like in order to be stored as it is. -/
structure StoredAsIs (v : Value) : Prop where
  unreserved : v.Avoids (Marker.all.map Marker.name)
  noNul : v.NoNulRegex
  sorted : v.SortedRegex
  canonical : v.CanonicalDecimal

theorem StoredAsIs.storable {v : Value} (asIs : v.StoredAsIs) : v.Storable :=
  ⟨asIs.unreserved, asIs.noNul⟩

theorem StoredAsIs.storedScalar_eq {v : Value} (asIs : v.StoredAsIs) : v.storedScalar = v := by
  cases v with
  | regex pattern options => exact congrArg (regex pattern) (sortedOptions_eq asIs.sorted)
  | decimal d => exact congrArg decimal asIs.canonical.canonical_eq
  | _ => rfl

/-- Values in canonical form are stored as they are. -/
theorem stored_eq_self {v : Value} (asIs : v.Everywhere StoredAsIs) : v.stored = v := by
  rw [stored_eq_mapScalars v (asIs.imp fun _ => StoredAsIs.storable)]
  exact mapScalars_eq_self (asIs.imp fun _ => StoredAsIs.storedScalar_eq)

/-! ### Reading -/

/-- Is a scalar that was replaced by `f` read as what `g` makes of it? -/
def ScalarReads (f g : Value → Value) : Value → Prop
  | .array _ | .document _ | .codeWithScope _ _ => True
  | v => (f v).read = .ok (g v)

/-- What a level has to be like so that it is read as it stands, with scalars that were replaced by
`f` read as what `g` makes of them. -/
structure Readable (f g : Value → Value) (v : Value) : Prop where
  distinct : v.DistinctNames
  unreserved : v.Avoids (Marker.all.map Marker.name)
  scalar : v.ScalarReads f g

section

variable {f g : Value → Value}

mutual

/-- A value is read level by level, and each scalar on its own. -/
theorem read_mapScalars : ∀ v : Value, v.Everywhere (Readable f g) →
    (v.mapScalars f).read = .ok (v.mapScalars g)
  | .null, readable | .bool _, readable | .int32 _, readable | .int64 _, readable
  | .double _, readable | .string _, readable | .objectId _, readable | .instant _, readable
  | .binary _ _, readable | .regex _ _, readable | .timestamp _ _, readable
  | .decimal _, readable | .symbol _, readable | .code _, readable | .pointer _ _, readable
  | .undefined, readable | .minKey, readable | .maxKey, readable => readable.here.scalar
  | .array items, readable => by
      have inner := readItems_mapItems items fun _ => readable.of_item
      rw [mapScalars, read, inner]
      rfl
  | .document entries, readable => by
      have inner := readEntries_mapEntries entries [] readable.here.distinct
        readable.here.unreserved fun _ => readable.of_field
      rw [mapScalars, read, inner]
      rfl
  | .codeWithScope source scope, readable => by
      have inner := readEntries_mapEntries scope [] readable.here.distinct
        readable.here.unreserved fun _ => readable.of_field
      rw [mapScalars, read, inner]
      rfl

theorem readItems_mapItems : ∀ items : List Value, (∀ v ∈ items, v.Everywhere (Readable f g)) →
    readItems (mapItems f items) = .ok (mapItems g items)
  | [], _ => rfl
  | v :: rest, readable => by
      obtain ⟨first, others⟩ := List.forall_mem_cons.1 readable
      rw [mapItems, readItems, read_mapScalars v first, ok_bind, readItems_mapItems rest others]
      rfl

/-- Entries are read behind the fields before them, as long as all their names differ. -/
theorem readEntries_mapEntries : ∀ entries before : Document,
    (before.names ++ entries.names).Nodup →
    (∀ name ∈ entries.names, name ∉ Marker.all.map Marker.name) →
    (∀ e ∈ entries, e.2.Everywhere (Readable f g)) →
      readEntries before (mapEntries f entries) = .ok (.document (before ++ mapEntries g entries))
  | [], before, _, _, _ => by rw [mapEntries, readEntries, mapEntries, List.append_nil]
  | (name, v) :: rest, before, distinct, unreserved, readable => by
      obtain ⟨first, others⟩ := List.forall_mem_cons.1 readable
      obtain ⟨headPlain, restPlain⟩ := List.forall_mem_cons.1 unreserved
      have plain := Marker.ofKey?_eq_none_iff.2 headPlain
      have fresh : name ∉ before.names := by
        intro old
        exact (List.nodup_append.1 distinct).2.2 name old name List.mem_cons_self rfl
      let read : Document := before ++ [(name, v.mapScalars g)]
      have stillDistinct : (read.names ++ Document.names rest).Nodup := by
        simpa only [read, Document.names, List.map_append, List.map_cons, List.map_nil,
          List.append_assoc, List.singleton_append] using distinct
      have later := readEntries_mapEntries rest read stillDistinct restPlain others
      simp only [mapEntries, readEntries, plain, read_mapScalars v first, ok_bind,
        Document.insert_of_notMem fresh]
      rw [later, List.append_assoc, List.singleton_append]

end

/-- A document is read where a document is wanted. -/
theorem readDocument_mapEntries {d : Document} (readable : (document d).Everywhere (Readable f g)) :
    readDocument (.document (mapEntries f d)) = .ok (mapEntries g d) := by
  have inner := readEntries_mapEntries d [] readable.here.distinct readable.here.unreserved
    fun _ => readable.of_field
  rw [readDocument, inner]
  rfl

end

/-! ### Storing and reading -/

/-- A scalar that was stored is read as it comes back. -/
theorem scalarReads_stored {v : Value} (noNul : v.NoNulRegex) :
    v.ScalarReads storedScalar carriedScalar := by
  cases v with
  | regex pattern options =>
      have sorted : hasNul (sortedOptions options) = false :=
        (hasNul_sortedOptions options).trans noNul.2
      simp only [ScalarReads, storedScalar, sortedScalar, carriedScalar, read, regex?, noNul.1,
        sorted, sortedOptions_eq (sorted_sortedOptions options)]
      rfl
  | _ => trivial

/-- What a level has to be like in order to be stored and read again. -/
structure Carriable (v : Value) : Prop where
  distinct : v.DistinctNames
  unreserved : v.Avoids (Marker.all.map Marker.name)
  noNul : v.NoNulRegex

theorem Carriable.storable {v : Value} (carriable : v.Carriable) : v.Storable :=
  ⟨carriable.unreserved, carriable.noNul⟩

theorem Carriable.readable {v : Value} (carriable : v.Carriable) :
    v.Readable storedScalar carriedScalar :=
  ⟨carriable.distinct, carriable.unreserved, scalarReads_stored carriable.noNul⟩

/-- A value that is stored and read again is what it was, but for some scalars. -/
theorem read_stored {v : Value} (carriable : v.Everywhere Carriable) :
    v.stored.read = .ok (v.mapScalars carriedScalar) := by
  rw [stored_eq_mapScalars v (carriable.imp fun _ => Carriable.storable)]
  exact read_mapScalars v (carriable.imp fun _ => Carriable.readable)

theorem readDocument_stored {d : Document} (carriable : (document d).Everywhere Carriable) :
    readDocument (document d).stored = .ok (mapEntries carriedScalar d) := by
  rw [stored_eq_mapScalars _ (carriable.imp fun _ => Carriable.storable)]
  exact readDocument_mapEntries (carriable.imp fun _ => Carriable.readable)

end Value

/-! ### Pieces of values -/

namespace Format

/-- A piece that is not null is read as the reader has it. -/
theorem optional_value {α : Type} {read : Value → Except Problem α} {v : Value} {a : α}
    (solid : v.isNull = false) (reads : read v = .ok a) :
    Value.format.optional read v = .ok (some a) := by
  have asked : Value.format.isNull v = .ok v.isNull := rfl
  rw [Source.optional, asked, solid, reads]
  rfl

/-- An array is read member by member. -/
theorem list_array {α : Type} (read : Value → Except Problem α) (items : List Value) :
    Value.format.list read (.array items) = items.mapM read :=
  bind_pure (items.mapM read)

end Format
end DocumentCommand
