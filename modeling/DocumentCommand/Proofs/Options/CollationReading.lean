import DocumentCommand.Options.Reading
import DocumentCommand.Proofs.Value.ScalarReading

/-!
# Collations read back from their JSON

A record that is written field by field is read field by field, and a collation comes back as it was
(`Format.collation_toRecord`).
-/

namespace DocumentCommand

open Reading

section Settings

variable {α β φ σ τ : Type} (set : τ → σ → τ)

/-- What a record becomes by a setting that need not be there. -/
def setAny (acc : τ) : Option σ → τ
  | some s => set acc s
  | none => acc

theorem foldl_filterMap_setting {setting? : φ → Option σ} (fields : List φ) (acc : τ) :
    (fields.filterMap setting?).foldl set acc
      = fields.foldl (fun acc f => setAny set acc (setting? f)) acc := by
  rw [List.foldl_filterMap]
  rfl

/-- A setting that is there only where its field is set does the same as the setting of that field.
-/
theorem setAny_map (setting : Option β → σ) {acc : τ} (unset : set acc (setting none) = acc)
    (x : Option α) (g : α → Option β) :
    setAny set acc (x.map fun a => setting (g a)) = set acc (setting (x.bind g)) := by
  cases x with
  | none => exact unset.symm
  | some a => rfl

end Settings

namespace Named

/-- The names of the alternatives tell them apart. -/
class Faithful (α : Type) [Named α] : Prop where
  ofName?_name : ∀ a : α, ofName? (name a) = some a

theorem mem_names {α : Type} [Named α] [Faithful α] (a : α) : name a ∈ names α := by
  have found := Faithful.ofName?_name a
  exact List.mem_map_of_mem (List.mem_of_find?_eq_some found)

instance : Faithful CaseFirst := ⟨fun a => by cases a <;> decide⟩

instance : Faithful Alternate := ⟨fun a => by cases a <;> decide⟩

instance : Faithful MaxVariable := ⟨fun a => by cases a <;> decide⟩

end Named

theorem Strength.ofLevel?_level (s : Strength) : Strength.ofLevel? s.level = some s := by
  cases s <;> decide

theorem Strength.ofNumber_level (s : Strength) : Strength.ofNumber s.level = .ok s := by
  rw [Strength.ofNumber, Strength.ofLevel?_level]

open Json (Cursor Datum)

namespace Format

theorem isNull_node {d : Datum} (whole : d.Whole) (solid : d ≠ .null) (room : Nat) :
    Json.format.isNull ⟨room, d.node⟩ = .ok false := by
  cases d with
  | null => exact absurd rfl solid
  | real => exact absurd whole id
  | _ => rfl

/-- What is written and is not null is read as the reader has it. -/
theorem optional_node {α : Type} {read : Cursor → Except Problem α} {d : Datum} {room : Nat} {a : α}
    (whole : d.Whole) (solid : d ≠ .null) (reads : read ⟨room, d.node⟩ = .ok a) :
    Json.format.optional read ⟨room, d.node⟩ = .ok (some a) := by
  simp [Source.optional, isNull_node whole solid, reads]

theorem optional_bool (room : Nat) (b : Bool) :
    Json.format.optional Json.format.bool ⟨room, (Datum.bool b).node⟩ = .ok (some b) :=
  optional_node trivial Datum.noConfusion rfl

theorem optional_string (room : Nat) (s : String) :
    Json.format.optional Json.format.string ⟨room, (Datum.string s).node⟩ = .ok (some s) :=
  optional_node trivial Datum.noConfusion (Cursor.string_node room s)

theorem optional_choice {α : Type} [Named α] [Named.Faithful α] (room : Nat) (a : α) :
    Json.format.optional (Json.format.choice α) ⟨room, (Datum.string (Named.name a)).node⟩
      = .ok (some a) := by
  have known : (Named.names α).contains (Named.name a) = true :=
    List.contains_iff_mem.2 (Named.mem_names a)
  have named : Json.format.variant (Named.names α) ⟨room, (Datum.string (Named.name a)).node⟩
      = .ok (Named.name a) := by
    simp only [Json.format, Cursor.source, Cursor.variant, Cursor.knownName, Datum.node,
      Json.textOf_ofString, ok_bind, known, if_true, pure_eq_ok]
  apply optional_node
  · trivial
  · exact Datum.noConfusion
  · simp only [choice, named, ok_bind, Named.Faithful.ofName?_name, pure_eq_ok]

theorem optional_strength (room : Nat) (s : Strength) :
    Json.format.optional Json.format.strength ⟨room, (Datum.integer s.level.toInt).node⟩
      = .ok (some s) := by
  have least : Int64.minValue.toInt ≤ s.level.toInt := by cases s <;> decide
  have greatest : s.level.toInt < UInt64.size := by cases s <;> decide
  have number : Json.format.int32 ⟨room, (Datum.integer s.level.toInt).node⟩ = .ok s.level := by
    simp [Json.format, Cursor.source, Cursor.int32, Datum.node, Json.numberOf_ofInt least greatest]
  apply optional_node
  · trivial
  · exact Datum.noConfusion
  · simp only [strength, number, ok_bind, Strength.ofNumber_level, mapError_ok]

end Format

namespace Collation

/-- The setting that a field of the collation is read back as. -/
def setting? (c : Collation) : Field → Option Setting
  | .locale => c.locale.map fun v => .locale (some v)
  | .caseLevel => c.caseLevel.map fun v => .caseLevel (some v)
  | .caseFirst => c.caseFirst.map fun v => .caseFirst (some v)
  | .strength => c.strength.map fun v => .strength (some v)
  | .numericOrdering => c.numericOrdering.map fun v => .numericOrdering (some v)
  | .alternate => c.alternate.map fun v => .alternate (some v)
  | .maxVariable => c.maxVariable.map fun v => .maxVariable (some v)
  | .normalization => c.normalization.map fun v => .normalization (some v)
  | .backwards => c.backwards.map fun v => .backwards (some v)

theorem setting?_eq_none {c : Collation} {f : Field} (unset : c.fieldValue? f = none) :
    c.setting? f = none := by
  cases f <;> exact Option.map_eq_none_iff.2 (Option.map_eq_none_iff.1 unset)

theorem collationField_node {c : Collation} {f : Field} {v : Value} (room : Nat)
    (value : c.fieldValue? f = some v) :
    ∃ s, c.setting? f = some s ∧ Json.format.collationField f ⟨room, v.toDatum.node⟩ = .ok s := by
  cases f <;> obtain ⟨a, given, rfl⟩ := Option.map_eq_some_iff.1 value <;>
    refine ⟨_, by rw [setting?, given]; rfl, ?_⟩ <;>
    simp only [Format.collationField, Value.toDatum, Format.optional_bool, Format.optional_string,
      Format.optional_choice, Format.optional_strength, map_ok]

/-- The settings of a written collation build it again. -/
theorem ofSettings_setting? (c : Collation) : ofSettings (Field.all.filterMap c.setting?) = c := by
  rw [ofSettings, foldl_filterMap_setting]
  simp only [Field.all, List.foldl_cons, List.foldl_nil, setting?]
  rw [setAny_map set .locale rfl, setAny_map set .caseLevel rfl, setAny_map set .caseFirst rfl,
    setAny_map set .strength rfl, setAny_map set .numericOrdering rfl,
    setAny_map set .alternate rfl, setAny_map set .maxVariable rfl,
    setAny_map set .normalization rfl, setAny_map set .backwards rfl]
  simp only [Option.bind_fun_some, set]

end Collation

/-- A record that is written field by field is read field by field. -/
theorem Format.readRecord_written {φ σ : Type} [DecidableEq φ] (F : Fields φ)
    (distinct : F.order.Nodup) (known : ∀ f, F.find? (F.name f) = some f) (wanted : Wanted)
    (room : Nat) {read : φ → Cursor → Except Problem σ}
    {unknown : String → Cursor → Except Problem Unit} {value? : φ → Option Value}
    {setting? : φ → Option σ}
    (absent : ∀ f, value? f = none → setting? f = none)
    (present : ∀ f v, value? f = some v →
      ∃ s, setting? f = some s ∧ read f ⟨room, v.toDatum.node⟩ = .ok s) :
    ∃ members, Json.format.record wanted ⟨room + 1,
        (Document.toDatum (F.order.filterMap fun f => (value? f).map (F.name f, ·))).node⟩
          = .ok members ∧
      F.readRecord read unknown members = .ok (F.order.filterMap setting?) := by
  have written : Json.format.record = Cursor.record := rfl
  have members : F.readNamed read unknown Json.Ending.closed.toReading []
      (F.order.filterMap fun f => ((value? f).map fun v => (⟨room, v.toDatum.node⟩ : Cursor)).map
        fun c => (.ok (F.name f), c)) = .ok (F.order.filterMap setting?) := by
    apply Fields.readNamed_filterMap F rfl (fun f _ => known f) _ _ F.order [] distinct
    · exact fun _ _ => List.not_mem_nil
    · exact fun f none => absent f (Option.map_eq_none_iff.1 none)
    · intro f c some
      obtain ⟨v, value, rfl⟩ := Option.map_eq_some_iff.1 some
      exact present f v value
  refine ⟨.named ⟨_, Json.Ending.closed.toReading⟩, ?_, members⟩
  rw [written, Cursor.record_document, List.map_filterMap]
  simp only [Option.map_map]
  rfl

/-- A collation comes back as it was. -/
theorem Format.collation_toRecord (c : Collation) (room : Nat) :
    Json.format.collation ⟨room + 1, c.toRecord.toDatum.node⟩ = .ok c := by
  obtain ⟨members, record, read⟩ := Format.readRecord_written
    ⟨Collation.Field.all, Collation.Field.name⟩ (by decide) (by intro f; cases f <;> decide)
    .collation room (fun _ => Collation.setting?_eq_none (c := c))
    (fun _ _ => Collation.collationField_node room)
  rw [Format.collation, Collation.toRecord, record, ok_bind, read, ok_bind, pure_eq_ok,
    Collation.ofSettings_setting?]

end DocumentCommand
