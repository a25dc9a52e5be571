import DocumentCommand.Proofs.Value.JsonReading

/-!
# What values are read

Whatever text a value is read from, no name in it is reserved, the names of every document differ,
and regular expressions hold no NUL and have their options sorted (`Json.readValue_settled`).
-/

namespace DocumentCommand

open Reading

namespace Value

/-- What every level of a value that was read is like. -/
structure Settled (v : Value) : Prop where
  distinct : v.DistinctNames
  unreserved : v.Avoids (Marker.all.map Marker.name)
  sorted : v.SortedRegex
  noNul : v.NoNulRegex

/-- Is it a scalar other than null? -/
def isScalar : Value → Bool
  | .null | .array _ | .document _ | .codeWithScope _ _ => false
  | _ => true

/-- A scalar other than null whose regular expressions are in order. -/
structure IsSettledScalar (v : Value) : Prop where
  scalar : v.isScalar = true
  sorted : v.SortedRegex
  noNul : v.NoNulRegex

theorem everywhere_settled_of_fields {v : Value} (noFields : v.fields = [])
    (noArray : ∀ items, v ≠ .array items) (sorted : v.SortedRegex) (noNul : v.NoNulRegex) :
    v.Everywhere Settled := by
  have distinct : v.DistinctNames := by
    rw [DistinctNames, noFields]
    exact List.nodup_nil
  have unreserved : v.Avoids (Marker.all.map Marker.name) := by
    rw [Avoids, noFields]
    exact List.forall_mem_nil _
  rw [everywhere_fields_iff noArray, noFields]
  exact ⟨⟨distinct, unreserved, sorted, noNul⟩, List.forall_mem_nil _⟩

theorem everywhere_settled_null : null.Everywhere Settled :=
  everywhere_settled_of_fields rfl (fun _ => Value.noConfusion) trivial trivial

/-- Where nothing was read of a document, all is in order. -/
theorem everywhere_settled_empty : (document []).Everywhere Settled :=
  everywhere_settled_of_fields rfl (fun _ => Value.noConfusion) trivial trivial

theorem IsSettledScalar.everywhere {v : Value} (settled : v.IsSettledScalar) :
    v.Everywhere Settled := by
  obtain ⟨scalar, sorted, noNul⟩ := settled
  have noFields : v.fields = [] := by
    cases v with
    | document | codeWithScope => cases scalar
    | _ => rfl
  have noArray : ∀ items, v ≠ .array items := by
    rintro items rfl
    cases scalar
  exact everywhere_settled_of_fields noFields noArray sorted noNul

theorem IsSettledScalar.notNull {v : Value} (settled : v.IsSettledScalar) : v ≠ .null := by
  rintro rfl
  cases settled.scalar

end Value

namespace Reading

open Value (IsSettledScalar)

theorem orExtended_eq_ok_iff {α : Type} {m : Marker} {result : Option α} {x : α} :
    orExtended m result = .ok x ↔ result = some x := by
  cases result <;> simp [orExtended]

theorem sorted_sortedOptions (options : String) :
    (sortedOptions options).toList.Pairwise fun a b => a.toNat ≤ b.toNat := by
  have sorted : (options.toList.mergeSort fun a b => decide (a.toNat ≤ b.toNat)).Pairwise
      fun a b => decide (a.toNat ≤ b.toNat) = true :=
    List.pairwise_mergeSort (by simp; omega) (by simp; omega) options.toList
  simpa [sortedOptions] using sorted

/-- Options that are in order stay as they are. -/
theorem sortedOptions_eq {options : String}
    (sorted : options.toList.Pairwise fun a b => a.toNat ≤ b.toNat) :
    sortedOptions options = options := by
  have kept : options.toList.mergeSort (fun a b => decide (a.toNat ≤ b.toNat)) = options.toList :=
    List.mergeSort_of_pairwise (by simpa using sorted)
  rw [sortedOptions, kept, String.ofList_toList]

theorem hasNul_sortedOptions (options : String) :
    hasNul (sortedOptions options) = hasNul options := by
  rw [hasNul, sortedOptions, String.toList_ofList]
  exact (List.mergeSort_perm _ _).any_eq

theorem isSettledScalar_of_regex? {pattern options : String} {v : Value}
    (read : regex? pattern options = some v) : v.IsSettledScalar := by
  rw [regex?] at read
  split at read
  · cases read
  · next clean =>
      cases read
      simp only [Bool.or_eq_true, not_or, Bool.not_eq_true] at clean
      have noNul : hasNul (sortedOptions options) = false :=
        (hasNul_sortedOptions options).trans clean.2
      exact ⟨rfl, sorted_sortedOptions options, clean.1, noNul⟩

theorem isSettledScalar_of_uuid? {text : String} {v : Value} (read : uuid? text = some v) :
    v.IsSettledScalar := by
  simp only [uuid?, Option.bind_eq_bind, Option.bind_eq_some_iff] at read
  obtain ⟨digits, -, bytes, -, read⟩ := read
  cases read
  exact ⟨rfl, trivial, trivial⟩

theorem isSettledScalar_of_binary? {base64 subtype : String} {v : Value}
    (read : binary? base64 subtype = some v) : v.IsSettledScalar := by
  simp only [binary?, Option.bind_eq_bind, Option.bind_eq_some_iff] at read
  obtain ⟨bytes, -, digits, -, read⟩ := read
  split at read
  · cases read
    exact ⟨rfl, trivial, trivial⟩
  · cases read

/-- Under a reserved name stands a scalar. -/
theorem isSettledScalar_of_readTagged {ν : Type} {S : Source ν} {tag : Tag} {c : ν} {v : Value}
    (read : readTagged S tag c = .ok v) : v.IsSettledScalar := by
  cases tag with
  | objectId | symbol | instant =>
      obtain ⟨x, -, read⟩ := bind_eq_ok_iff.1 read
      cases read
      exact ⟨rfl, trivial, trivial⟩
  | int32 | int64 | double | decimal | decimalBytes =>
      obtain ⟨text, -, read⟩ := bind_eq_ok_iff.1 read
      obtain ⟨x, -, read⟩ := bind_eq_ok_iff.1 read
      cases read
      exact ⟨rfl, trivial, trivial⟩
  | uuid =>
      obtain ⟨text, -, read⟩ := bind_eq_ok_iff.1 read
      exact isSettledScalar_of_uuid? (orExtended_eq_ok_iff.1 read)
  | binary =>
      obtain ⟨parts, -, read⟩ := bind_eq_ok_iff.1 read
      exact isSettledScalar_of_binary? (orExtended_eq_ok_iff.1 read)
  | regex =>
      obtain ⟨parts, -, read⟩ := bind_eq_ok_iff.1 read
      exact isSettledScalar_of_regex? (orExtended_eq_ok_iff.1 read)
  | timestamp =>
      obtain ⟨parts, -, read⟩ := bind_eq_ok_iff.1 read
      cases read
      exact ⟨rfl, trivial, trivial⟩
  | pointer =>
      obtain ⟨parts, -, read⟩ := bind_eq_ok_iff.1 read
      obtain ⟨x, -, read⟩ := bind_eq_ok_iff.1 read
      cases read
      exact ⟨rfl, trivial, trivial⟩
  | minKey | maxKey | undefined =>
      obtain ⟨x, -, read⟩ := bind_eq_ok_iff.1 read
      split at read
      · cases read
        exact ⟨rfl, trivial, trivial⟩
      · cases read

end Reading

namespace Document

theorem names_insert (d : Document) (name : String) (v : Value) :
    (d.insert name v).names = if name ∈ d.names then d.names else d.names ++ [name] := by
  induction d with
  | nil => rfl
  | cons e rest ih =>
      obtain ⟨k, w⟩ := e
      have others : names ((k, w) :: rest) = k :: names rest := rfl
      by_cases same : k = name
      · rw [insert, if_pos same, others, if_pos (same ▸ List.mem_cons_self)]
        rfl
      · have first : names ((k, w) :: insert rest name v) = k :: names (insert rest name v) := rfl
        rw [insert, if_neg same, first, ih, others]
        by_cases old : name ∈ names rest
        · rw [if_pos old, if_pos (List.mem_cons_of_mem _ old)]
        · have new : name ∉ k :: names rest := by simp [old, Ne.symm same]
          rw [if_neg old, if_neg new, List.cons_append]

/-- What a built document holds was there before or was put in. -/
theorem mem_insert {d : Document} {name : String} {v : Value} {e : String × Value}
    (member : e ∈ d.insert name v) : e ∈ d ∨ e = (name, v) := by
  induction d with
  | nil => exact .inr (List.mem_singleton.1 member)
  | cons f rest ih =>
      obtain ⟨k, w⟩ := f
      rw [insert] at member
      split at member
      · next same =>
          subst same
          rcases List.mem_cons.1 member with new | old
          · exact .inr new
          · exact .inl (List.mem_cons_of_mem _ old)
      · rcases List.mem_cons.1 member with first | later
        · exact .inl (first ▸ List.mem_cons_self)
        · rcases ih later with old | new
          · exact .inl (List.mem_cons_of_mem _ old)
          · exact .inr new

end Document

namespace Value

/-- A document stays settled when a value is put in under a name that is not reserved. -/
theorem everywhere_settled_insert {d : Document} {key : String} {v : Value}
    (settled : (document d).Everywhere Settled) (plain : Marker.ofKey? key = none)
    (inner : v.Everywhere Settled) : (document (d.insert key v)).Everywhere Settled := by
  have distinct : (d.insert key v).names.Nodup := by
    have before : d.names.Nodup := settled.here.distinct
    rw [Document.names_insert]
    split
    · exact before
    · next fresh =>
        refine List.nodup_append.2 ⟨before, by simp, ?_⟩
        intro name old other new same
        exact fresh (List.mem_singleton.1 new ▸ same ▸ old)
  have unreserved : ∀ name ∈ (d.insert key v).names, name ∉ Marker.all.map Marker.name := by
    intro name member
    rw [Document.names_insert] at member
    split at member
    · exact settled.here.unreserved name member
    · rcases List.mem_append.1 member with old | new
      · exact settled.here.unreserved name old
      · rw [List.mem_singleton.1 new]
        exact Marker.ofKey?_eq_none_iff.1 plain
  rw [everywhere_fields_iff fun _ => Value.noConfusion]
  refine ⟨⟨distinct, unreserved, trivial, trivial⟩, ?_⟩
  intro e member
  rcases Document.mem_insert member with old | rfl
  · exact settled.of_field old
  · exact inner

/-- A scope is like a document. -/
theorem everywhere_settled_scope {source : String} {scope : Document}
    (settled : (document scope).Everywhere Settled) :
    (codeWithScope source scope).Everywhere Settled :=
  (everywhere_fields_iff fun _ => Value.noConfusion).2
    ⟨⟨settled.here.distinct, settled.here.unreserved, trivial, trivial⟩, fun _ => settled.of_field⟩

end Value

namespace Json

open Value (Settled IsSettledScalar)

theorem isSettledScalar_of_valueOfNumber {n : Number} {v : Value} (read : valueOfNumber n = .ok v) :
    v.IsSettledScalar := by
  cases n with
  | real x =>
      cases read
      exact ⟨rfl, trivial, trivial⟩
  | integer n =>
      simp only [valueOfNumber] at read
      split at read
      · cases read
        exact ⟨rfl, trivial, trivial⟩
      · cases read
        exact ⟨rfl, trivial, trivial⟩
      · cases read

theorem refuse_ne_ok {α : Type} (wanted : Wanted) (node : Node) {x : α} :
    refuse wanted node ≠ .ok x := by
  intro read
  unfold refuse at read
  cases node with
  | number n =>
      obtain ⟨number, -, read⟩ := bind_eq_ok_iff.1 read
      cases number <;> cases read
  | string q =>
      obtain ⟨s, -, read⟩ := bind_eq_ok_iff.1 read
      cases read
  | _ => cases read

mutual

/-- A value that was read is settled through and through. -/
theorem readValue_settled : ∀ (node : Node) {room : Nat} {v : Value},
    readValue room node = .ok v → v.Everywhere Settled
  | .null, _, _, read => by
      cases read
      exact Value.everywhere_settled_null
  | .bool b, _, _, read => by
      cases read
      exact IsSettledScalar.everywhere ⟨rfl, trivial, trivial⟩
  | .number n, _, _, read => by
      obtain ⟨x, -, read⟩ := bind_eq_ok_iff.1 read
      exact (isSettledScalar_of_valueOfNumber read).everywhere
  | .string q, _, _, read => by
      obtain ⟨s, -, read⟩ := bind_eq_ok_iff.1 read
      cases read
      exact IsSettledScalar.everywhere ⟨rfl, trivial, trivial⟩
  | .array items ending, _, _, read => by
      obtain ⟨room, -, read⟩ := bind_eq_ok_iff.1 read
      obtain ⟨values, inner, read⟩ := bind_eq_ok_iff.1 read
      obtain ⟨-, -, read⟩ := bind_eq_ok_iff.1 read
      cases read
      have own : Settled (.array values) :=
        ⟨List.nodup_nil, List.forall_mem_nil _, trivial, trivial⟩
      exact Value.everywhere_array_iff.2 ⟨own, readItems_settled items inner⟩
  | .object members ending, _, _, read => by
      obtain ⟨room, -, read⟩ := bind_eq_ok_iff.1 read
      exact (readMembers_settled members Value.everywhere_settled_empty read).1
  | .nameless _, _, _, read => by cases read
  | .broken _, _, _, read => by cases read

theorem readItems_settled : ∀ (items : List Node) {room : Nat} {vs : List Value},
    readItems room items = .ok vs → ∀ v ∈ vs, v.Everywhere Settled
  | [], _, _, read => by
      cases read
      exact List.forall_mem_nil _
  | item :: rest, _, _, read => by
      obtain ⟨v, first, read⟩ := bind_eq_ok_iff.1 read
      obtain ⟨vs, others, read⟩ := bind_eq_ok_iff.1 read
      cases read
      exact List.forall_mem_cons.2 ⟨readValue_settled item first, readItems_settled rest others⟩

theorem readDocument_settled : ∀ (node : Node) {room : Nat} {d : Document},
    readDocument room node = .ok d → (Value.document d).Everywhere Settled
  | .object members ending, _, _, read => by
      obtain ⟨room, -, read⟩ := bind_eq_ok_iff.1 read
      obtain ⟨v, inner, read⟩ := bind_eq_ok_iff.1 read
      have settled := (readMembers_settled members Value.everywhere_settled_empty inner).1
      cases v with
      | document d =>
          cases read
          exact settled
      | _ => cases read
  | .null, _, _, read | .bool _, _, _, read | .number _, _, _, read | .string _, _, _, read
  | .array _ _, _, _, read | .broken _, _, _, read => by
      simp only [readDocument] at read
      exact absurd read (refuse_ne_ok _ _)
  | .nameless _, _, _, read => by cases read

/-- What an object holds is settled, given that what was read of it before is, and is not null. -/
theorem readMembers_settled : ∀ (members : List (Quoted × Node)) {room : Nat}
    {ending : Reading.Ending} {fields : Document} {v : Value},
    (Value.document fields).Everywhere Settled → readMembers room ending fields members = .ok v →
      v.Everywhere Settled ∧ v ≠ .null
  | [], _, _, _, _, settled, read => by
      obtain ⟨-, -, read⟩ := bind_eq_ok_iff.1 read
      cases read
      exact ⟨settled, Value.noConfusion⟩
  | (key, node) :: rest, _, _, _, _, settled, read => by
      rw [readMembers] at read
      obtain ⟨name, -, read⟩ := bind_eq_ok_iff.1 read
      split at read
      · next plain =>
          obtain ⟨v, first, read⟩ := bind_eq_ok_iff.1 read
          exact readMembers_settled rest
            (Value.everywhere_settled_insert settled plain (readValue_settled node first)) read
      · obtain ⟨v, tagged, read⟩ := bind_eq_ok_iff.1 read
        obtain ⟨-, -, read⟩ := bind_eq_ok_iff.1 read
        cases read
        have scalar := isSettledScalar_of_readTagged tagged
        exact ⟨scalar.everywhere, scalar.notNull⟩
      · obtain ⟨source, -, read⟩ := bind_eq_ok_iff.1 read
        cases rest with
        | nil =>
            obtain ⟨-, -, read⟩ := bind_eq_ok_iff.1 read
            cases read
            exact ⟨IsSettledScalar.everywhere ⟨rfl, trivial, trivial⟩, Value.noConfusion⟩
        | cons member rest =>
            obtain ⟨second, inner⟩ := member
            obtain ⟨other, -, read⟩ := bind_eq_ok_iff.1 read
            split at read
            · obtain ⟨scope, document, read⟩ := bind_eq_ok_iff.1 read
              obtain ⟨-, -, read⟩ := bind_eq_ok_iff.1 read
              cases read
              have settled := readDocument_settled inner document
              exact ⟨Value.everywhere_settled_scope settled, Value.noConfusion⟩
            · cases read
      · obtain ⟨scope, document, read⟩ := bind_eq_ok_iff.1 read
        have settled := readDocument_settled node document
        cases rest with
        | nil =>
            obtain ⟨-, -, read⟩ := bind_eq_ok_iff.1 read
            cases read
        | cons member rest =>
            obtain ⟨second, inner⟩ := member
            obtain ⟨other, -, read⟩ := bind_eq_ok_iff.1 read
            split at read
            · obtain ⟨source, -, read⟩ := bind_eq_ok_iff.1 read
              obtain ⟨-, -, read⟩ := bind_eq_ok_iff.1 read
              cases read
              exact ⟨Value.everywhere_settled_scope settled, Value.noConfusion⟩
            · cases read

end

/-- Null is read from null only. -/
theorem readValue_ne_null {node : Node} {room : Nat} {v : Value} (solid : node ≠ .null)
    (read : readValue room node = .ok v) : v ≠ .null := by
  cases node with
  | null => exact absurd rfl solid
  | bool b =>
      cases read
      exact Value.noConfusion
  | number n =>
      obtain ⟨x, -, read⟩ := bind_eq_ok_iff.1 read
      exact (isSettledScalar_of_valueOfNumber read).notNull
  | string q =>
      obtain ⟨s, -, read⟩ := bind_eq_ok_iff.1 read
      cases read
      exact Value.noConfusion
  | array items ending =>
      obtain ⟨room, -, read⟩ := bind_eq_ok_iff.1 read
      obtain ⟨values, -, read⟩ := bind_eq_ok_iff.1 read
      obtain ⟨-, -, read⟩ := bind_eq_ok_iff.1 read
      cases read
      exact Value.noConfusion
  | object members ending =>
      obtain ⟨room, -, read⟩ := bind_eq_ok_iff.1 read
      exact (readMembers_settled members Value.everywhere_settled_empty read).2
  | nameless first => cases read
  | broken b => cases read

end Json
end DocumentCommand
