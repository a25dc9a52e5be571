import DocumentCommand.Json.Source
import DocumentCommand.Options.Update
import DocumentCommand.Value.Source

/-!
# Reading options

Options and collations are records; this module says how each of their fields is read.  A `Format`
is a source together with its way of reading values and documents, and the two formats, JSON text
and documents, are read by the same definitions.

All fields may be missing and all but `upsert` may be null, which leaves them unset.  Fields that
nobody knows are passed over.
-/

namespace DocumentCommand

open Reading

/-- The level of a number, or why it has none. -/
def Strength.ofNumber (n : Int32) : Except Mismatch Strength :=
  match ofLevel? n with
  | some s => .ok s
  | none => .error (.unknownStrength n.toInt)

/-- A format that options can be read from. -/
structure Format (ν : Type) extends Source ν where
  value : ν → Except Problem Value
  document : ν → Except Problem Document

namespace Format

variable {ν : Type} (F : Format ν)

/-- One of the named alternatives of a type. -/
def choice (α : Type) [Named α] (v : ν) : Except Problem α := do
  let name ← F.variant (Named.names α) v
  match Named.ofName? name with
  | some a => return a
  | none => throw (.data (.unknownVariant name (Named.names α)))

/-- The strength of a comparison, by its number. -/
def strength (v : ν) : Except Problem Strength := do
  (Strength.ofNumber (← F.int32 v)).mapError .data

/-- A field of a collation. -/
def collationField (f : Collation.Field) (v : ν) : Except Problem Collation.Setting :=
  match f with
  | .locale => .locale <$> F.optional F.string v
  | .caseLevel => .caseLevel <$> F.optional F.bool v
  | .caseFirst => .caseFirst <$> F.optional (F.choice CaseFirst) v
  | .strength => .strength <$> F.optional F.strength v
  | .numericOrdering => .numericOrdering <$> F.optional F.bool v
  | .alternate => .alternate <$> F.optional (F.choice Alternate) v
  | .maxVariable => .maxVariable <$> F.optional (F.choice MaxVariable) v
  | .normalization => .normalization <$> F.optional F.bool v
  | .backwards => .backwards <$> F.optional F.bool v

/-- A collation. -/
def collation (v : ν) : Except Problem Collation := do
  let fields : Fields Collation.Field := ⟨Collation.Field.all, Collation.Field.name⟩
  let settings ← fields.readRecord F.collationField (fun _ => F.skip) (← F.record .collation v)
  return Collation.ofSettings settings

/-- A field of the options. -/
def updateField (f : UpdateOptions.Field) (v : ν) : Except Problem UpdateOptions.Setting :=
  match f with
  | .upsert => .upsert <$> F.bool v
  | .bypassDocumentValidation => .bypassDocumentValidation <$> F.optional F.bool v
  | .collation => .collation <$> F.optional F.collation v
  | .arrayFilters => .arrayFilters <$> F.optional (F.list F.document) v
  | .hint => .hint <$> F.optional F.document v
  | .hintString => .hintString <$> F.optional F.string v
  | .comment => .commentValue <$> F.optional F.value v
  | .bindings => .bindings <$> F.optional F.document v
  | .sort => .sort <$> F.optional F.document v

/-- The options of an update. -/
def updateOptions (v : ν) : Except Problem UpdateOptions := do
  let fields : Fields UpdateOptions.Field := ⟨UpdateOptions.Field.all, UpdateOptions.Field.name⟩
  let settings ← fields.readRecord F.updateField (fun _ => F.skip) (← F.record .updateOptions v)
  return UpdateOptions.ofSettings settings

end Format

/-- JSON text as a format. -/
def Json.format : Format Json.Cursor :=
  { Json.Cursor.source with
    value := fun c => Json.readValue c.room c.node
    document := fun c => Json.readDocument c.room c.node }

/-- Values as a format. -/
def Value.format : Format Value :=
  { Value.source with
    value := Value.read
    document := Value.readDocument }

/-- The options that a JSON text writes. -/
def UpdateOptions.ofJson (text : List Char) : Except Problem UpdateOptions :=
  Json.readText Json.format.updateOptions text

/-- The options that a document holds. -/
def UpdateOptions.ofDocument (d : Document) : Except Problem UpdateOptions :=
  Value.format.updateOptions (.document d)

/-- The collation that a JSON text writes. -/
def Collation.ofJson (text : List Char) : Except Problem Collation :=
  Json.readText Json.format.collation text

/-- The collation that a document holds. -/
def Collation.ofDocument (d : Document) : Except Problem Collation :=
  Value.format.collation (.document d)

end DocumentCommand
