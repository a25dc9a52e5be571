import DocumentCommand.Value.Basic

/-!
# Looking up the fields of built documents

Documents that are sent are put together from fields that need not be there, so a field is looked up
part by part.
-/

namespace DocumentCommand.Document

theorem get?_append (a b : Document) (key : String) :
    get? (a ++ b) key = (get? a key).or (get? b key) :=
  List.lookup_append

theorem get?_cons (name : String) (v : Value) (rest : Document) (key : String) :
    get? ((name, v) :: rest) key = if key = name then some v else get? rest key := by
  by_cases same : key = name
  · simp [get?, same]
  · simp [get?, List.lookup_cons, beq_eq_false_iff_ne.2 same, same]

@[simp] theorem get?_nil (key : String) : get? [] key = none := rfl

/-- A field that need not be there is found under its own name only. -/
theorem get?_field (name : String) (v : Option Value) (key : String) :
    get? (field name v) key = if key = name then v else none := by
  cases v with
  | none => simp [field]
  | some v => simp [field, get?_cons]

theorem names_append (a b : Document) : names (a ++ b) = names a ++ names b :=
  List.map_append

theorem names_field_sublist (name : String) (v : Option Value) :
    (names (field name v)).Sublist [name] := by
  cases v with
  | none => exact List.nil_sublist [name]
  | some v => exact List.Sublist.refl [name]

/-- A field behind others may add its own name to theirs. -/
theorem names_append_field_sublist {d : Document} {keys : List String}
    (before : d.names.Sublist keys) (name : String) (v : Option Value) :
    (names (d ++ field name v)).Sublist (keys ++ [name]) := by
  rw [names_append]
  exact before.append (names_field_sublist name v)

theorem get?_eq_none_iff {d : Document} {key : String} : d.get? key = none ↔ key ∉ d.names := by
  induction d with
  | nil => simp [names]
  | cons e rest ih =>
      rw [get?_cons, names, List.map_cons, ← names, List.mem_cons, not_or, ← ih]
      by_cases same : key = e.1
      · simp [same]
      · simp [same]

theorem mem_of_get? {d : Document} {key : String} {v : Value} (found : d.get? key = some v) :
    (key, v) ∈ d := by
  induction d with
  | nil => cases found
  | cons e rest ih =>
      rw [get?_cons] at found
      by_cases same : key = e.1
      · rw [if_pos same] at found
        cases found
        rw [same]
        exact List.mem_cons_self
      · rw [if_neg same] at found
        exact List.mem_cons_of_mem _ (ih found)

section Records

variable {φ : Type} {fields : List φ} {name : φ → String} {value? : φ → Option Value}

/-- A record is its fields one after another. -/
theorem filterMap_cons_field (value? : φ → Option Value) (name : φ → String) (f : φ)
    (fields : List φ) :
    ((f :: fields).filterMap fun f => (value? f).map (name f, ·))
      = field (name f) (value? f) ++ fields.filterMap fun f => (value? f).map (name f, ·) := by
  cases value : value? f <;> simp [field, value]

/-- Each entry of a record is a field with its value. -/
theorem forall_mem_record {P : String × Value → Prop}
    (each : ∀ f ∈ fields, ∀ v, value? f = some v → P (name f, v)) :
    ∀ e ∈ fields.filterMap fun f => (value? f).map (name f, ·), P e := by
  intro e entry
  obtain ⟨f, field, named⟩ := List.mem_filterMap.1 entry
  obtain ⟨v, value, rfl⟩ := Option.map_eq_some_iff.1 named
  exact each f field v value

/-- A record has only names of its fields, in their order. -/
theorem names_record_sublist (fields : List φ) (name : φ → String) (value? : φ → Option Value) :
    (names (fields.filterMap fun f => (value? f).map (name f, ·))).Sublist (fields.map name) := by
  induction fields with
  | nil => exact List.Sublist.refl []
  | cons f rest ih =>
      cases value : value? f with
      | none => simpa [value, names] using ih.cons (name f)
      | some v => simpa [value, names] using ih.cons_cons (name f)

/-- The value of a field is found under its name. -/
theorem get?_record {f : φ} (distinct : (fields.map name).Nodup) (member : f ∈ fields) :
    get? (fields.filterMap fun f => (value? f).map (name f, ·)) (name f) = value? f := by
  induction fields with
  | nil => cases member
  | cons g rest ih =>
      rw [List.map_cons, List.nodup_cons] at distinct
      obtain ⟨first, others⟩ := distinct
      rcases List.mem_cons.1 member with rfl | later
      · -- The names after the first differ from it.
        have gone : get? (rest.filterMap fun f => (value? f).map (name f, ·)) (name f) = none := by
          rw [get?_eq_none_iff]
          intro found
          exact first ((names_record_sublist rest name value?).subset found)
        cases value : value? f with
        | none => simpa [value] using gone
        | some v => simp [value, get?_cons]
      · have differs : name f ≠ name g := by
          intro same
          exact first (same ▸ List.mem_map_of_mem later)
        cases value : value? g with
        | none => simpa [value] using ih others later
        | some v => simpa [value, get?_cons, differs] using ih others later

end Records

/-- A document whose names come from a list of different ones, in the order of the list, is the
record of its own fields. -/
theorem eq_record_of_names_sublist {order : List String} (distinct : order.Nodup) {d : Document}
    (keys : d.names.Sublist order) {value? : String → Option Value}
    (found : ∀ key ∈ order, d.get? key = value? key) :
    d = order.filterMap fun key => (value? key).map (key, ·) := by
  induction order generalizing d with
  | nil =>
      cases d with
      | nil => rfl
      | cons e rest => cases keys
  | cons first others ih =>
      obtain ⟨fresh, othersDistinct⟩ := List.nodup_cons.1 distinct
      obtain ⟨foundFirst, foundOthers⟩ := List.forall_mem_cons.1 found
      rw [List.filterMap_cons, ← foundFirst]
      rcases List.sublist_cons_iff.1 keys with later | ⟨names, begins, later⟩
      · have absent : d.get? first = none := by
          rw [get?_eq_none_iff]
          intro member
          exact fresh (later.subset member)
        rw [absent, Option.map_none]
        exact ih othersDistinct later foundOthers
      · cases d with
        | nil => cases begins
        | cons e rest =>
            obtain ⟨rfl, rfl⟩ := List.cons.inj begins
            have foundRest : ∀ key ∈ others, get? rest key = value? key := by
              intro key member
              have differs : key ≠ e.1 := fun same => fresh (same ▸ member)
              rw [← foundOthers key member, get?_cons, if_neg differs]
            rw [get?_cons, if_pos rfl, Option.map_some, ← ih othersDistinct later foundRest]

end DocumentCommand.Document
