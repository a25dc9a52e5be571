import DocumentCommand.Proofs.Command.Encoding
import DocumentCommand.Proofs.Options.StoredReading

/-!
# The options in a command and the options as they are stored

A command is put together key by key, while options are stored field by field.  For options whose
values are stored as they are, both say the same of every option (`Update.toDocument_says_stored`):
an option stands in the command when it stands in the stored document, with the same value, apart
from the flags that a command leaves out where they are unset and the hint that is not sent.
-/

namespace DocumentCommand

open Document (field)

namespace UpdateOptions

theorem stored_fieldValue? {o : UpdateOptions} {f : Field} {v : Value}
    (asIs : o.Everywhere Value.StoredAsIs) (value : o.fieldValue? f = some v) : v.stored = v := by
  cases f with
  | upsert =>
      obtain rfl := Option.some.inj value
      rfl
  | bypassDocumentValidation | hintString =>
      obtain ⟨a, -, rfl⟩ := Option.map_eq_some_iff.1 value
      rfl
  | collation =>
      obtain ⟨c, -, rfl⟩ := Option.map_eq_some_iff.1 value
      exact c.stored_toRecord
  | arrayFilters =>
      obtain ⟨ds, given, rfl⟩ := Option.map_eq_some_iff.1 value
      rw [Value.documents, Value.stored, Value.storedItems_eq_map, List.map_map]
      apply congrArg Value.array
      apply List.map_congr_left
      intro d member
      exact Value.stored_eq_self (asIs.arrayFilters given d member)
  | hint | comment | bindings | sort =>
      exact Value.stored_eq_self (asIs.single (by decide) value)

/-- Options whose values are stored as they are, are stored as the record that they are. -/
theorem stored_eq_toRecord {o : UpdateOptions} (asIs : o.Everywhere Value.StoredAsIs) :
    o.stored = o.toRecord := by
  apply Value.storedEntries_eq_self
  apply Document.forall_mem_record
  intro f _ v value
  exact stored_fieldValue? asIs value

/-- A field is found in the stored options under its name. -/
theorem get?_stored {o : UpdateOptions} (asIs : o.Everywhere Value.StoredAsIs) (f : Field) :
    o.stored.get? f.name = o.fieldValue? f := by
  rw [stored_eq_toRecord asIs]
  exact Document.get?_record (by decide) f.mem_all

end UpdateOptions

namespace Command

/-- What the document of a command, and the only statement in it, say of the options that are stored
as a document. -/
structure SaysStored (multi : Bool) (stored sent statement : Document) : Prop where
  /-- The statement is the only one. -/
  single : sent.get? "updates" = some (Value.documents [statement])
  /-- The command has no other keys, and none of them twice. -/
  sentKeys : sent.names.Sublist
    ["update", "updates", "ordered", "bypassDocumentValidation", "comment", "let"]
  /-- The statement has no other keys, and none of them twice. -/
  statementKeys : statement.names.Sublist
    ["q", "u", "upsert", "multi", "collation", "arrayFilters", "hint", "sort"]
  beside : ∀ key ∈ ["bypassDocumentValidation", "comment", "let"], sent.get? key = stored.get? key
  inside : ∀ key ∈ ["collation", "arrayFilters", "sort"], statement.get? key = stored.get? key
  /-- Of the two forms of a hint the document is sent, and the name where there is none. -/
  hint : statement.get? "hint" = (stored.get? "hint").or (stored.get? "hintString")
  upsert : stored.get? "upsert" = some (.bool true) → statement.get? "upsert" = some (.bool true)
  noUpsert : stored.get? "upsert" ≠ some (.bool true) → statement.get? "upsert" = none
  multi : statement.get? "multi" = if multi then some (.bool true) else none

namespace Update

theorem names_statement_sublist (u : Update) : u.statement.names.Sublist
    ["q", "u", "upsert", "multi", "collation", "arrayFilters", "hint", "sort"] := by
  have start : (Document.names [("q", .document u.filter), ("u", u.modification.toValue)]).Sublist
      ["q", "u"] := List.Sublist.refl _
  have upsert := Document.names_append_field_sublist start "upsert"
    (if u.options.upsert then some (.bool true) else none)
  have multi := Document.names_append_field_sublist upsert "multi"
    (if u.multi then some (.bool true) else none)
  have collation := Document.names_append_field_sublist multi "collation"
    (u.options.collation.map fun c => .document c.toDocument)
  have arrayFilters := Document.names_append_field_sublist collation "arrayFilters"
    (u.options.arrayFilters.map Value.documents)
  have hint := Document.names_append_field_sublist arrayFilters "hint" (hint? u.options)
  exact Document.names_append_field_sublist hint "sort" (u.options.sort.map .document)

theorem names_document_sublist (u : Update) : u.document.names.Sublist
    ["update", "updates", "ordered", "bypassDocumentValidation", "comment", "let"] := by
  have start : (Document.names [("update", .string u.collection),
      ("updates", Value.documents [u.statement]), ("ordered", .bool true)]).Sublist
      ["update", "updates", "ordered"] := List.Sublist.refl _
  have validation := Document.names_append_field_sublist start "bypassDocumentValidation"
    (u.options.bypassDocumentValidation.map .bool)
  have comment := Document.names_append_field_sublist validation "comment" u.options.comment
  exact Document.names_append_field_sublist comment "let" (u.options.bindings.map .document)

/-- The options that stand beside the statement are those of the record. -/
theorem get?_document {f : UpdateOptions.Field} (u : Update)
    (beside : f ∈ [.bypassDocumentValidation, .comment, .bindings]) :
    u.document.get? f.name = u.options.fieldValue? f := by
  simp only [List.mem_cons, List.not_mem_nil, or_false] at beside
  rcases beside with rfl | rfl | rfl <;>
    simp [document, Document.get?_append, Document.get?_cons, Document.get?_field,
      UpdateOptions.Field.name, UpdateOptions.fieldValue?]

/-- The options that stand in the statement as they are, are those of the record. -/
theorem get?_statement {f : UpdateOptions.Field} (u : Update)
    (inside : f ∈ [.collation, .arrayFilters, .sort]) :
    u.statement.get? f.name = u.options.fieldValue? f := by
  simp only [List.mem_cons, List.not_mem_nil, or_false] at inside
  rcases inside with rfl | rfl | rfl <;>
    simp [statement, Document.get?_append, Document.get?_cons, Document.get?_field,
      UpdateOptions.Field.name, UpdateOptions.fieldValue?, Collation.toDocument_eq_toRecord]

/-- The document of the hint is sent, and its name where there is no document. -/
theorem hint?_eq_or (o : UpdateOptions) :
    hint? o = (o.fieldValue? .hint).or (o.fieldValue? .hintString) := by
  rw [hint?, UpdateOptions.fieldValue?, UpdateOptions.fieldValue?]
  cases o.hint with
  | none => rw [Option.map_none, Option.none_or]
  | some d => rw [Option.map_some, Option.some_or]

/-- The document of an update says of the options what the stored options say, when their values are
in canonical form and without reserved names.  That no regular expression holds a NUL says no more
than that the values are well formed. -/
theorem toDocument_says_stored (u : Update)
    (unreserved : u.options.Everywhere (Value.Avoids (Marker.all.map Marker.name)))
    (noNul : u.options.Everywhere Value.NoNulRegex)
    (sorted : u.options.Everywhere Value.SortedRegex)
    (canonical : u.options.Everywhere Value.CanonicalDecimal) :
    SaysStored u.multi u.options.stored u.toDocument.result u.statement := by
  have asIs : u.options.Everywhere Value.StoredAsIs :=
    ((unreserved.and noNul).and (sorted.and canonical)).imp fun _ ⟨⟨r, n⟩, s, c⟩ => ⟨r, n, s, c⟩
  have stored := UpdateOptions.get?_stored asIs
  have upsert : u.options.stored.get? "upsert" = some (.bool u.options.upsert) := stored .upsert
  have flags : u.statement.get? "upsert" = (if u.options.upsert then some (.bool true) else none) ∧
      u.statement.get? "multi" = if u.multi then some (.bool true) else none := by
    simp [statement, Document.get?_append, Document.get?_cons, Document.get?_field]
  have hint : u.statement.get? "hint" = hint? u.options := by
    simp [statement, Document.get?_append, Document.get?_cons, Document.get?_field]
  constructor
  case single => simp [toDocument, document, Document.get?_cons]
  case sentKeys => exact u.names_document_sublist
  case statementKeys => exact u.names_statement_sublist
  case beside =>
    intro key member
    obtain ⟨f, field, rfl⟩ := List.mem_map.1 (show key ∈
      [UpdateOptions.Field.bypassDocumentValidation, .comment, .bindings].map (·.name) from member)
    exact (u.get?_document field).trans (stored f).symm
  case inside =>
    intro key member
    obtain ⟨f, field, rfl⟩ := List.mem_map.1 (show key ∈
      [UpdateOptions.Field.collation, .arrayFilters, .sort].map (·.name) from member)
    exact (u.get?_statement field).trans (stored f).symm
  case hint =>
    rw [hint, hint?_eq_or, ← stored .hint, ← stored .hintString]
    rfl
  case upsert =>
    intro set
    rw [upsert] at set
    rw [flags.1, if_pos (Value.bool.inj (Option.some.inj set))]
  case noUpsert =>
    intro unset
    rw [flags.1, if_neg]
    intro set
    exact unset (upsert.trans (by rw [set]))
  case multi => exact flags.2

/-- An update with all its options set, their values in canonical form. -/
def canonical : Update where
  collection := "c"
  filter := [("a", .null)]
  modification := .pipeline [[]]
  multi := true
  options :=
    { UpdateOptions.everyKind.toUpdateOptions with bindings := some [("re", .regex "^a" "ix")] }

theorem canonical_says_stored :
    canonical.options.Everywhere (Value.Avoids (Marker.all.map Marker.name)) ∧
      canonical.options.Everywhere Value.NoNulRegex ∧
      canonical.options.Everywhere Value.SortedRegex ∧
      canonical.options.Everywhere Value.CanonicalDecimal ∧
      SaysStored canonical.multi canonical.options.stored canonical.toDocument.result
        canonical.statement := by
  have unreserved : canonical.options.Everywhere (Value.Avoids (Marker.all.map Marker.name)) := by
    decide
  have noNul : canonical.options.Everywhere Value.NoNulRegex := by decide
  have sorted : canonical.options.Everywhere Value.SortedRegex := by decide
  have packed : canonical.options.Everywhere Value.CanonicalDecimal := by decide
  exact ⟨unreserved, noNul, sorted, packed,
    toDocument_says_stored canonical unreserved noNul sorted packed⟩

/-- A decimal number in another packing and the reserved name for the bytes of one are sent as they
are and stored as something else. -/
theorem not_says_stored_without_conditions :
    (¬ ∀ u : Update, u.options.Everywhere (Value.Avoids (Marker.all.map Marker.name)) →
      u.options.Everywhere Value.NoNulRegex → u.options.Everywhere Value.SortedRegex →
      SaysStored u.multi u.options.stored u.toDocument.result u.statement) ∧
    (¬ ∀ u : Update,
      u.options.Everywhere
        (Value.Avoids ((Marker.all.filter (· ≠ .typed .decimalBytes)).map Marker.name)) →
      u.options.Everywhere Value.NoNulRegex → u.options.Everywhere Value.SortedRegex →
      u.options.Everywhere Value.CanonicalDecimal →
      SaysStored u.multi u.options.stored u.toDocument.result u.statement) := by
  refine ⟨?packing, ?reserved⟩
  case packing =>
    intro all
    let d := Decimal128.ofParts true (.nan false)
    let u : Update := one "c" [] (.document []) |>.withOptions { comment := some (.decimal d) }
    have agrees := all u (by decide) (by decide) (by decide)
    have sent : some (Value.decimal d) = some (.decimal d.throughText) :=
      agrees.beside "comment" (by decide)
    have same : d = d.canonical := by
      rw [← d.throughText_eq_canonical]
      exact Value.decimal.inj (Option.some.inj sent)
    exact absurd same (by decide)
  case reserved =>
    intro all
    let bytes : List UInt8 := List.replicate 16 0
    let written : Document := [("$numberDecimalBytes", .binary Value.genericSubtype bytes)]
    let commented : UpdateOptions := { comment := some (.document written) }
    let u : Update := one "c" [] (.document []) |>.withOptions commented
    have agrees := all u (by decide) (by decide) (by decide) (by decide)
    have sent : some (Value.document written) = some (.decimal (.ofBytes bytes)) :=
      agrees.beside "comment" (by decide)
    cases sent

end Update
end Command
end DocumentCommand
