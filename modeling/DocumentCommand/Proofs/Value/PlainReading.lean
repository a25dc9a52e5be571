import DocumentCommand.Options.Reading
import DocumentCommand.Proofs.Reading.Agreement
import DocumentCommand.Proofs.Value.JsonReading
import DocumentCommand.Proofs.Value.StoredReading

/-!
# Plain values in both formats

A value is plain when its JSON tells all about it: scalars that JSON has, whole numbers in the width
that they are read with, arrays, and documents without reserved names.  The readers of both formats
agree on plain values, whatever is wanted of them, apart from names that are written as documents of
their own (`Format.agree_variant`).
-/

namespace DocumentCommand

open Reading
open Json (Cursor Datum)

namespace Value

/-- Is it of a kind that JSON has, a whole number of the width that it is read with? -/
def IsPlain : Value → Prop
  | .null | .bool _ | .string _ | .array _ | .document _ => True
  | .int32 n => 0 ≤ n.toInt
  | .int64 n => n.toInt < 0 ∨ Int32.maxValue.toInt < n.toInt
  | _ => False

instance : DecidablePred IsPlain
  | .null | .bool _ | .string _ | .array _ | .document _ => isTrue trivial
  | .int32 n => inferInstanceAs (Decidable (0 ≤ n.toInt))
  | .int64 n => inferInstanceAs (Decidable (n.toInt < 0 ∨ Int32.maxValue.toInt < n.toInt))
  | .double _ | .objectId _ | .instant _ | .binary _ _ | .regex _ _ | .timestamp _ _ | .decimal _
  | .symbol _ | .code _ | .codeWithScope _ _ | .pointer _ _ | .undefined | .minKey
  | .maxKey => isFalse id

/-- What a level has to be like so that both formats read it alike. -/
structure Common (v : Value) : Prop where
  plain : v.IsPlain
  distinct : v.DistinctNames
  unreserved : v.Avoids (Marker.all.map Marker.name)

/-- A plain scalar is read back from its JSON as it is. -/
theorem IsPlain.rereadScalar_eq {v : Value} (plain : v.IsPlain) : v.rereadScalar = v := by
  cases v with
  | int32 n =>
      have small : 0 ≤ n.toInt ∧ n.toInt ≤ Int32.maxValue.toInt := ⟨plain, n.toInt_le⟩
      have same : ofInteger n.toInt = .int32 (Int32.ofInt n.toInt) := if_pos small
      exact same.trans (congrArg int32 (Int32.ofInt_toInt n))
  | int64 n =>
      have large : ¬ (0 ≤ n.toInt ∧ n.toInt ≤ Int32.maxValue.toInt) := by
        rintro ⟨least, greatest⟩
        rcases plain with negative | wide
        · exact absurd negative (Int.not_lt.2 least)
        · exact absurd wide (Int.not_lt.2 greatest)
      have same : ofInteger n.toInt = .int64 (Int64.ofInt n.toInt) := if_neg large
      exact same.trans (congrArg int64 (Int64.ofInt_toInt n))
  | null | bool b | string s | array items | document entries => rfl
  | _ => exact plain.elim

theorem IsPlain.notFinite {v : Value} (plain : v.IsPlain) : v.NotFiniteDouble := by
  cases v with
  | double x => exact plain.elim
  | _ => trivial

theorem Common.rereadable {v : Value} (common : v.Common) : v.Rereadable where
  distinct := common.distinct
  unreserved := common.unreserved
  notFinite := common.plain.notFinite
  noNul := by
    cases v with
    | regex pattern options => exact common.plain.elim
    | _ => trivial

theorem Common.readable {v : Value} (common : v.Common) :
    v.Readable (fun w => w) (fun w => w) where
  distinct := common.distinct
  unreserved := common.unreserved
  scalar := by
    cases v with
    | regex pattern options => exact common.plain.elim
    | instant t => exact common.plain.elim
    | array items => trivial
    | document entries => trivial
    | codeWithScope source scope => trivial
    | _ => rfl

section

variable {v : Value} (common : v.Everywhere Common)

include common

/-- A plain value is read as it stands. -/
theorem read_common : v.read = .ok v := by
  have read := read_mapScalars v (common.imp fun _ => Common.readable)
  rwa [mapScalars_self] at read

theorem mapScalars_rereadScalar : v.mapScalars rereadScalar = v :=
  mapScalars_eq_self (common.imp fun _ level => level.plain.rereadScalar_eq)

end

end Value

namespace Json

/-- Nothing stands in the way of passing over a string that was written. -/
theorem obstacle?_ofString (s : String) : (Quoted.ofString s).obstacle? = none := by
  have written : ∀ c : Char, ∀ bare, Quoted.pieceOf c ≠ .bare bare := by
    intro c bare
    rw [Quoted.pieceOf]
    split
    · exact Piece.noConfusion
    · exact Piece.noConfusion
  rw [Quoted.obstacle?, Quoted.ofString, if_neg]
  rw [Bool.not_eq_true, List.any_map, List.any_eq_false]
  intro c _
  cases piece : Quoted.pieceOf c with
  | bare b => exact absurd piece (written c b)
  | _ => simp [piece]

mutual

/-- What was written is passed over, whatever it is, as long as its numbers are whole. -/
theorem skip_node : ∀ d : Datum, d.Whole → d.node.skip = .ok ()
  | .null, _ | .bool _, _ | .integer _, _ => rfl
  | .real _, whole => whole.elim
  | .string s, _ => by
      rw [Datum.node, Node.skip, obstacle?_ofString]
  | .array items, whole => by
      rw [Datum.node, Node.skip, skipItems_itemNodes items whole]
      rfl
  | .object members, whole => by
      rw [Datum.node, Node.skip, skipMembers_memberNodes members whole]
      rfl

theorem skipItems_itemNodes : ∀ items : List Datum, Datum.ItemsWhole items →
    skipItems (Datum.itemNodes items) = .ok ()
  | [], _ => rfl
  | d :: rest, whole => by
      rw [Datum.itemNodes, skipItems, skip_node d whole.1, ok_bind,
        skipItems_itemNodes rest whole.2]

theorem skipMembers_memberNodes : ∀ members : List (String × Datum), Datum.MembersWhole members →
    skipMembers (Datum.memberNodes members) = .ok ()
  | [], _ => rfl
  | (name, d) :: rest, whole => by
      simp only [Datum.memberNodes, skipMembers, obstacle?_ofString, ok_bind,
        skip_node d whole.1, skipMembers_memberNodes rest whole.2]

end

end Json

namespace Format

open Value

/-- Both formats refuse what is not wanted. -/
theorem agree_refuse {α : Type} (wanted : Wanted) (v : Value) (node : Json.Node) :
    Agree (Value.refuse wanted v : Except Problem α) (Json.refuse wanted node) := by
  apply Agree.of_fail
  · rintro a ⟨⟩
  · exact fun _ => Json.refuse_ne_ok wanted node

/-- A whole number is read alike, of whichever width the value is. -/
theorem int32_integer {v : Value} {n : Int} (room : Nat) (known : v.asInteger? = some n)
    (least : Int64.minValue.toInt ≤ n) (greatest : n < UInt64.size) :
    Value.format.int32 v = Json.format.int32 ⟨room, (Datum.integer n).node⟩ := by
  have value : Value.format.int32 v = Value.readInt32 v := rfl
  have json : Json.format.int32 = Cursor.int32 := rfl
  simp only [value, json, Value.readInt32, known, Cursor.int32, Datum.node,
    Json.numberOf_ofInt least greatest, ok_bind]
  cases Integer.int32? n <;> rfl

section

variable {v : Value} (plain : v.IsPlain) (room : Nat)

include plain

theorem isNull_plain : Json.format.isNull ⟨room, v.toDatum.node⟩ = .ok v.isNull := by
  cases v <;> first | exact plain.elim | rfl

theorem agree_bool : Agree (Value.format.bool v) (Json.format.bool ⟨room, v.toDatum.node⟩) := by
  have refused : Agree (Value.refuse .bool v : Except Problem Bool) _ :=
    agree_refuse .bool v v.toDatum.node
  cases v with
  | bool b => exact Agree.refl _
  | null | string s | array items | document entries | int32 n | int64 n => exact refused
  | _ => exact plain.elim

theorem agree_string :
    Agree (Value.format.string v) (Json.format.string ⟨room, v.toDatum.node⟩) := by
  have refused : Agree (Value.refuse .string v : Except Problem String) _ :=
    agree_refuse .string v v.toDatum.node
  cases v with
  | string s => exact Agree.of_eq (Cursor.string_node room s).symm
  | null | bool b | array items | document entries | int32 n | int64 n => exact refused
  | _ => exact plain.elim

theorem agree_int32 : Agree (Value.format.int32 v) (Json.format.int32 ⟨room, v.toDatum.node⟩) := by
  have refused : Agree (Value.refuse .int32 v : Except Problem Int32) _ :=
    agree_refuse .int32 v v.toDatum.node
  cases v with
  | int32 n =>
      have least : Int64.minValue.toInt ≤ Int32.minValue.toInt := by decide
      have greatest : Int32.maxValue.toInt < UInt64.size := by decide
      exact Agree.of_eq (int32_integer room rfl (Int.le_trans least n.minValue_le_toInt)
        (Int.lt_of_le_of_lt n.toInt_le greatest))
  | int64 n =>
      have greatest : Int64.maxValue.toInt < UInt64.size := by decide
      exact Agree.of_eq (int32_integer room rfl n.minValue_le_toInt
        (Int.lt_of_le_of_lt n.toInt_le greatest))
  | null | bool b | array items | document entries | string s => exact refused
  | _ => exact plain.elim

/-- A name that is no document of its own is read alike. -/
theorem agree_variant (noDocument : ∀ d, v ≠ .document d) (known : List String) :
    Agree (Value.format.variant known v) (Json.format.variant known ⟨room, v.toDatum.node⟩) := by
  cases v with
  | string s =>
      have name : Json.textOf (.ofString s) = .ok s := Json.textOf_ofString s
      have value : Value.format.variant known (.string s) = Value.knownName known s := rfl
      have json : Json.format.variant known ⟨room, (Value.string s).toDatum.node⟩
          = Cursor.knownName known (.ofString s) := rfl
      rw [value, json, Cursor.knownName, name]
      exact Agree.refl _
  | document entries => exact absurd rfl (noDocument entries)
  | null | bool b | array items | int32 n | int64 n =>
      exact Agree.of_error _ _
  | _ => exact plain.elim

/-- What may be null is read alike, when it is where it is not null. -/
theorem agree_optional {α : Type} {readA : Value → Except Problem α}
    {readB : Cursor → Except Problem α}
    (each : v.isNull = false → Agree (readA v) (readB ⟨room, v.toDatum.node⟩)) :
    Agree (Value.format.optional readA v)
      (Json.format.optional readB ⟨room, v.toDatum.node⟩) := by
  have value : Value.format.isNull v = .ok v.isNull := rfl
  simp only [Source.optional, value, isNull_plain plain room, ok_bind]
  cases null : v.isNull with
  | true => exact Agree.refl _
  | false =>
      apply Agree.bind (each null)
      intro a
      exact Agree.refl _

/-- Sequences are read alike, when their members are. -/
theorem agree_list {α : Type} {readA : Value → Except Problem α} {readB : Cursor → Except Problem α}
    (deep : v.toDatum.depth ≤ room)
    (each : ∀ items, v = .array items → ∀ w ∈ items, ∀ r, w.toDatum.depth ≤ r →
      Agree (readA w) (readB ⟨r, w.toDatum.node⟩)) :
    Agree (Value.format.list readA v) (Json.format.list readB ⟨room, v.toDatum.node⟩) := by
  have refused : ∀ run : Run Cursor, Json.refuse .sequence v.toDatum.node ≠ .ok run :=
    fun _ => Json.refuse_ne_ok .sequence v.toDatum.node
  cases v with
  | array items =>
      obtain ⟨r, rfl, shallow⟩ := Json.exists_inner_room deep
      have json : Json.format.list readB ⟨r + 1, (Value.array items).toDatum.node⟩
          = items.mapM fun w => readB ⟨r, w.toDatum.node⟩ := Cursor.list_array readB r items
      rw [list_array, json]
      apply Agree.mapM
      intro w member
      exact each items rfl w member r (Nat.le_trans (Json.depth_le_of_mem_items member) shallow)
  | null | bool b | string s | document entries | int32 n | int64 n =>
      apply Agree.of_fail
      · rintro x ⟨⟩
      · intro x read
        obtain ⟨run, sequence, -⟩ := bind_eq_ok_iff.1 read
        exact refused run sequence
  | _ => exact plain.elim

end

section

variable {v : Value} {room : Nat} (common : v.Everywhere Common) (deep : v.toDatum.depth ≤ room)

include common deep

theorem agree_value : Agree (Value.format.value v) (Json.format.value ⟨room, v.toDatum.node⟩) := by
  have json : Json.format.value ⟨room, v.toDatum.node⟩ = .ok v :=
    (Json.readValue_toDatum v room (common.imp fun _ => Common.rereadable) deep).trans
      (congrArg Except.ok (mapScalars_rereadScalar common))
  exact Agree.of_eq ((read_common common).trans json.symm)

theorem agree_document :
    Agree (Value.format.document v) (Json.format.document ⟨room, v.toDatum.node⟩) := by
  have refused : ∀ d : Document, Json.refuse .extended v.toDatum.node ≠ .ok d :=
    fun _ => Json.refuse_ne_ok .extended v.toDatum.node
  cases v with
  | document d =>
      have value := readDocument_mapEntries (common.imp fun _ => Common.readable)
      have json := Json.readDocument_toDatum d room (common.imp fun _ => Common.rereadable) deep
      have same : mapEntries rereadScalar d = d :=
        Value.document.inj (mapScalars_rereadScalar common)
      rw [same] at json
      rw [mapEntries_self] at value
      exact Agree.of_eq (value.trans json.symm)
  | array items =>
      apply Agree.of_fail
      · intro d read
        obtain ⟨-, -, thrown⟩ := bind_eq_ok_iff.1 read
        cases thrown
      · exact refused
  | null | bool b | string s | int32 n | int64 n =>
      apply Agree.of_fail
      · rintro d ⟨⟩
      · exact refused
  | _ => exact common.here.plain.elim

end

end Format

end DocumentCommand
