import DocumentCommand.Options.Update
import DocumentCommand.Proofs.Decimal128.RoundTrip
import DocumentCommand.Proofs.Json.CompactText

/-!
# Values through and through

Conditions on a value and on every value within it (`Value.Everywhere`), and the replacement of
every scalar within a value (`Value.mapScalars`), which leaves arrays, documents and the names in
them as they are.  The conditions themselves say something about one level each.
-/

namespace DocumentCommand

open Reading

namespace Value

/-- The value's own fields, if it has any. -/
def fields : Value → List (String × Value)
  | .document entries => entries
  | .codeWithScope _ scope => scope
  | _ => []

/-- The first value is the second or stands somewhere within it. -/
inductive Within : Value → Value → Prop where
  | self (v : Value) : Within v v
  | item {w v : Value} {items : List Value} (member : v ∈ items) (within : Within w v) :
      Within w (.array items)
  | field {w v container : Value} {name : String} (member : (name, v) ∈ container.fields)
      (within : Within w v) : Within w container

/-- The condition holds of the value and of every value within it. -/
def Everywhere (P : Value → Prop) (v : Value) : Prop :=
  ∀ w, Within w v → P w

mutual

/-- The value with every scalar within it replaced. -/
def mapScalars (f : Value → Value) : Value → Value
  | .array items => .array (mapItems f items)
  | .document entries => .document (mapEntries f entries)
  | .codeWithScope source scope => .codeWithScope source (mapEntries f scope)
  | v => f v

/-- The members of an array with every scalar within them replaced. -/
def mapItems (f : Value → Value) : List Value → List Value
  | [] => []
  | v :: rest => mapScalars f v :: mapItems f rest

/-- The fields of a document with every scalar within them replaced. -/
def mapEntries (f : Value → Value) : List (String × Value) → List (String × Value)
  | [] => []
  | (name, v) :: rest => (name, mapScalars f v) :: mapEntries f rest

end

/-! ### Conditions on one level -/

/-- Its own fields differ in their names. -/
def DistinctNames (v : Value) : Prop :=
  (Document.names v.fields).Nodup

/-- None of its own fields has one of the names. -/
def Avoids (names : List String) (v : Value) : Prop :=
  ∀ name ∈ Document.names v.fields, name ∉ names

/-- It is no finite double. -/
def NotFiniteDouble : Value → Prop
  | .double x => x.isFinite = false
  | _ => True

/-- It is no double. -/
def NotDouble : Value → Prop
  | .double _ => False
  | _ => True

/-- If it is a decimal number, it is in canonical packing. -/
def CanonicalDecimal : Value → Prop
  | .decimal d => d.IsCanonical
  | _ => True

/-- If it is a regular expression, it holds no NUL. -/
def NoNulRegex : Value → Prop
  | .regex pattern options => hasNul pattern = false ∧ hasNul options = false
  | _ => True

/-- If it is a regular expression, its options stand in the order of their characters. -/
def SortedRegex : Value → Prop
  | .regex _ options => options.toList.Pairwise fun a b => a.toNat ≤ b.toNat
  | _ => True

/-! ### Conditions everywhere -/

section

variable {P Q : Value → Prop}

theorem Everywhere.here {v : Value} (holds : v.Everywhere P) : P v :=
  holds v (.self v)

theorem Everywhere.imp {v : Value} (weaker : ∀ w, P w → Q w) (holds : v.Everywhere P) :
    v.Everywhere Q := by
  intro w within
  apply weaker
  exact holds w within

theorem Everywhere.and {v : Value} (first : v.Everywhere P) (second : v.Everywhere Q) :
    v.Everywhere fun w => P w ∧ Q w := by
  intro w within
  exact ⟨first w within, second w within⟩

theorem Everywhere.of_field {v container : Value} {name : String} (holds : container.Everywhere P)
    (member : (name, v) ∈ container.fields) : v.Everywhere P := by
  intro w within
  apply holds
  exact .field member within

theorem Everywhere.of_item {v : Value} {items : List Value} (holds : (array items).Everywhere P)
    (member : v ∈ items) : v.Everywhere P := by
  intro w within
  apply holds
  exact .item member within

/-- A condition holds everywhere in an array when it holds of the array and everywhere in its
members. -/
theorem everywhere_array_iff {items : List Value} :
    (array items).Everywhere P ↔ P (.array items) ∧ ∀ v ∈ items, v.Everywhere P := by
  constructor
  · intro holds
    exact ⟨holds.here, fun _ => holds.of_item⟩
  · rintro ⟨own, inner⟩ w within
    cases within with
    | self => exact own
    | item member within => exact inner _ member w within
    | field member => cases member

/-- A condition holds everywhere in a value that is no array when it holds of the value and
everywhere in its fields. -/
theorem everywhere_fields_iff {v : Value} (noArray : ∀ items, v ≠ .array items) :
    v.Everywhere P ↔ P v ∧ ∀ e ∈ v.fields, e.2.Everywhere P := by
  constructor
  · intro holds
    exact ⟨holds.here, fun _ => holds.of_field⟩
  · rintro ⟨own, inner⟩ w within
    cases within with
    | self => exact own
    | item => exact absurd rfl (noArray _)
    | field member within => exact inner _ member w within

end

mutual

/-- A value is well formed when names differ everywhere in it. -/
theorem wellFormed_iff : ∀ v : Value, v.WellFormed ↔ v.Everywhere DistinctNames
  | .array items => by
      rw [WellFormed, everywhere_array_iff, allWellFormed_iff items]
      exact (and_iff_right List.nodup_nil).symm
  | .document entries => by
      rw [WellFormed, entriesWellFormed_iff entries,
        everywhere_fields_iff fun _ => Value.noConfusion]
      rfl
  | .codeWithScope source scope => by
      rw [WellFormed, entriesWellFormed_iff scope,
        everywhere_fields_iff fun _ => Value.noConfusion]
      rfl
  | .null | .bool _ | .int32 _ | .int64 _ | .double _ | .string _ | .objectId _ | .instant _
  | .binary _ _ | .regex _ _ | .timestamp _ _ | .decimal _ | .symbol _ | .code _ | .pointer _ _
  | .undefined | .minKey | .maxKey => by
      rw [everywhere_fields_iff fun _ => Value.noConfusion]
      exact iff_of_true trivial ⟨List.nodup_nil, List.forall_mem_nil _⟩

theorem allWellFormed_iff : ∀ items : List Value,
    AllWellFormed items ↔ ∀ v ∈ items, v.Everywhere DistinctNames
  | [] => iff_of_true trivial (List.forall_mem_nil _)
  | v :: rest => by
      rw [AllWellFormed, wellFormed_iff v, allWellFormed_iff rest, List.forall_mem_cons]

theorem entriesWellFormed_iff : ∀ entries : List (String × Value),
    EntriesWellFormed entries ↔ ∀ e ∈ entries, e.2.Everywhere DistinctNames
  | [] => iff_of_true trivial (List.forall_mem_nil _)
  | (name, v) :: rest => by
      rw [EntriesWellFormed, wellFormed_iff v, entriesWellFormed_iff rest, List.forall_mem_cons]

end

end Value

/-- A document as documents are built: the names of its fields differ, and so do those of every
document within it. -/
structure DistinctDocument where
  entries : Document
  distinct : (Value.document entries).Everywhere Value.DistinctNames

namespace Value

/-! ### Replacing scalars -/

mutual

/-- Scalars that are replaced alike leave the same value. -/
theorem mapScalars_congr {f g : Value → Value} : ∀ v : Value,
    v.Everywhere (fun w => f w = g w) → v.mapScalars f = v.mapScalars g
  | .null, same | .bool _, same | .int32 _, same | .int64 _, same | .double _, same
  | .string _, same | .objectId _, same | .instant _, same | .binary _ _, same
  | .regex _ _, same | .timestamp _ _, same | .decimal _, same | .symbol _, same | .code _, same
  | .pointer _ _, same | .undefined, same | .minKey, same | .maxKey, same => same.here
  | .array items, same => congrArg array (mapItems_congr items fun _ => same.of_item)
  | .document entries, same => congrArg document (mapEntries_congr entries fun _ => same.of_field)
  | .codeWithScope source scope, same =>
      congrArg (codeWithScope source) (mapEntries_congr scope fun _ => same.of_field)

theorem mapItems_congr {f g : Value → Value} : ∀ items : List Value,
    (∀ v ∈ items, v.Everywhere fun w => f w = g w) → mapItems f items = mapItems g items
  | [], _ => rfl
  | v :: rest, same => by
      obtain ⟨first, others⟩ := List.forall_mem_cons.1 same
      rw [mapItems, mapItems, mapScalars_congr v first, mapItems_congr rest others]

theorem mapEntries_congr {f g : Value → Value} : ∀ entries : List (String × Value),
    (∀ e ∈ entries, e.2.Everywhere fun w => f w = g w) → mapEntries f entries = mapEntries g entries
  | [], _ => rfl
  | (name, v) :: rest, same => by
      obtain ⟨first, others⟩ := List.forall_mem_cons.1 same
      rw [mapEntries, mapEntries, mapScalars_congr v first, mapEntries_congr rest others]

end

/-! ### Testing conditions -/

mutual

/-- Do the value and all values within it pass the test? -/
def passes (test : Value → Bool) : Value → Bool
  | .array items => test (.array items) && itemsPass test items
  | .document entries => test (.document entries) && entriesPass test entries
  | .codeWithScope source scope => test (.codeWithScope source scope) && entriesPass test scope
  | v => test v

/-- Do all members of an array pass the test? -/
def itemsPass (test : Value → Bool) : List Value → Bool
  | [] => true
  | v :: rest => passes test v && itemsPass test rest

/-- Do the values of all fields pass the test? -/
def entriesPass (test : Value → Bool) : List (String × Value) → Bool
  | [] => true
  | (_, v) :: rest => passes test v && entriesPass test rest

end

section

variable {test : Value → Bool}

mutual

theorem passes_iff : ∀ v : Value, passes test v = true ↔ v.Everywhere fun w => test w = true
  | .array items => by
      rw [passes, Bool.and_eq_true, itemsPass_iff, everywhere_array_iff]
  | .document entries => by
      rw [passes, Bool.and_eq_true, entriesPass_iff,
        everywhere_fields_iff fun _ => Value.noConfusion]
      rfl
  | .codeWithScope source scope => by
      rw [passes, Bool.and_eq_true, entriesPass_iff,
        everywhere_fields_iff fun _ => Value.noConfusion]
      rfl
  | .null | .bool _ | .int32 _ | .int64 _ | .double _ | .string _ | .objectId _ | .instant _
  | .binary _ _ | .regex _ _ | .timestamp _ _ | .decimal _ | .symbol _ | .code _ | .pointer _ _
  | .undefined | .minKey | .maxKey => by
      constructor
      · intro own
        exact (everywhere_fields_iff fun _ => Value.noConfusion).2 ⟨own, List.forall_mem_nil _⟩
      · exact Everywhere.here

theorem itemsPass_iff : ∀ items : List Value,
    itemsPass test items = true ↔ ∀ v ∈ items, v.Everywhere fun w => test w = true
  | [] => by simp [itemsPass]
  | v :: rest => by
      rw [itemsPass, Bool.and_eq_true, passes_iff, itemsPass_iff, List.forall_mem_cons]

theorem entriesPass_iff : ∀ entries : List (String × Value),
    entriesPass test entries = true ↔ ∀ e ∈ entries, e.2.Everywhere fun w => test w = true
  | [] => by simp [entriesPass]
  | (name, v) :: rest => by
      rw [entriesPass, Bool.and_eq_true, passes_iff, entriesPass_iff, List.forall_mem_cons]

end

end

instance {P : Value → Prop} [DecidablePred P] (v : Value) : Decidable (v.Everywhere P) :=
  decidable_of_iff (passes (fun w => decide (P w)) v = true)
    ((passes_iff v).trans (by simp only [decide_eq_true_eq]))

instance : DecidablePred DistinctNames := fun v =>
  inferInstanceAs (Decidable (Document.names v.fields).Nodup)

instance (names : List String) : DecidablePred (Avoids names) := fun v =>
  inferInstanceAs (Decidable (∀ name ∈ Document.names v.fields, name ∉ names))

instance : DecidablePred NotFiniteDouble
  | .double x => inferInstanceAs (Decidable (x.isFinite = false))
  | .null | .bool _ | .int32 _ | .int64 _ | .string _ | .array _ | .document _ | .objectId _
  | .instant _ | .binary _ _ | .regex _ _ | .timestamp _ _ | .decimal _ | .symbol _ | .code _
  | .codeWithScope _ _ | .pointer _ _ | .undefined | .minKey | .maxKey => isTrue trivial

instance : DecidablePred NotDouble
  | .double _ => isFalse id
  | .null | .bool _ | .int32 _ | .int64 _ | .string _ | .array _ | .document _ | .objectId _
  | .instant _ | .binary _ _ | .regex _ _ | .timestamp _ _ | .decimal _ | .symbol _ | .code _
  | .codeWithScope _ _ | .pointer _ _ | .undefined | .minKey | .maxKey => isTrue trivial

instance : DecidablePred CanonicalDecimal
  | .decimal d => inferInstanceAs (Decidable d.IsCanonical)
  | .null | .bool _ | .int32 _ | .int64 _ | .string _ | .array _ | .document _ | .objectId _
  | .instant _ | .binary _ _ | .regex _ _ | .timestamp _ _ | .double _ | .symbol _ | .code _
  | .codeWithScope _ _ | .pointer _ _ | .undefined | .minKey | .maxKey => isTrue trivial

instance : DecidablePred NoNulRegex
  | .regex pattern options =>
    inferInstanceAs (Decidable (hasNul pattern = false ∧ hasNul options = false))
  | .null | .bool _ | .int32 _ | .int64 _ | .string _ | .array _ | .document _ | .objectId _
  | .instant _ | .binary _ _ | .double _ | .timestamp _ _ | .decimal _ | .symbol _ | .code _
  | .codeWithScope _ _ | .pointer _ _ | .undefined | .minKey | .maxKey => isTrue trivial

instance : DecidablePred SortedRegex
  | .regex _ options =>
    inferInstanceAs (Decidable (options.toList.Pairwise fun a b => a.toNat ≤ b.toNat))
  | .null | .bool _ | .int32 _ | .int64 _ | .string _ | .array _ | .document _ | .objectId _
  | .instant _ | .binary _ _ | .double _ | .timestamp _ _ | .decimal _ | .symbol _ | .code _
  | .codeWithScope _ _ | .pointer _ _ | .undefined | .minKey | .maxKey => isTrue trivial

/-! ### Numbers with a point -/

theorem itemsWhole_integers (bytes : List UInt8) :
    Json.Datum.ItemsWhole (bytes.map fun b => .integer b.toNat) := by
  induction bytes with
  | nil => trivial
  | cons b bytes ih => exact ⟨trivial, ih⟩

mutual

/-- The datum of a value without finite doubles holds whole numbers only. -/
theorem whole_toDatum : ∀ v : Value, v.Everywhere NotFiniteDouble → v.toDatum.Whole
  | .null, _ | .bool _, _ | .int32 _, _ | .int64 _, _ | .string _, _ | .objectId _, _
  | .instant _, _ | .regex _ _, _ | .timestamp _ _, _ | .decimal _, _ | .symbol _, _
  | .code _, _ | .pointer _ _, _ | .undefined, _ | .minKey, _ | .maxKey, _ => by
      simp only [toDatum, tagged, objectIdDatum, Json.Datum.Whole, Json.Datum.MembersWhole,
        and_self]
  | .double x, h => by
      have infinite : x.isFinite = false := h.here
      simp [toDatum, Json.Datum.ofDouble, infinite, Json.Datum.Whole]
  | .binary subtype bytes, _ => by
      rw [toDatum]
      split
      · exact itemsWhole_integers bytes
      · simp only [tagged, Json.Datum.Whole, Json.Datum.MembersWhole, and_self]
  | .array items, h => itemsWhole_itemsDatum items fun _ => h.of_item
  | .document entries, h => membersWhole_entriesDatum entries fun _ => h.of_field
  | .codeWithScope source scope, h =>
      ⟨trivial, membersWhole_entriesDatum scope fun _ => h.of_field, trivial⟩

theorem itemsWhole_itemsDatum : ∀ items : List Value,
    (∀ v ∈ items, v.Everywhere NotFiniteDouble) → Json.Datum.ItemsWhole (itemsDatum items)
  | [], _ => trivial
  | v :: rest, h => by
      obtain ⟨first, others⟩ := List.forall_mem_cons.1 h
      exact ⟨whole_toDatum v first, itemsWhole_itemsDatum rest others⟩

theorem membersWhole_entriesDatum : ∀ entries : List (String × Value),
    (∀ e ∈ entries, e.2.Everywhere NotFiniteDouble) → Json.Datum.MembersWhole (entriesDatum entries)
  | [], _ => trivial
  | (name, v) :: rest, h => by
      obtain ⟨first, others⟩ := List.forall_mem_cons.1 h
      exact ⟨whole_toDatum v first, membersWhole_entriesDatum rest others⟩

end

end Value
end DocumentCommand
