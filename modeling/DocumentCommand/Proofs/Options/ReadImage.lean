import DocumentCommand.Proofs.Options.JsonReading
import DocumentCommand.Proofs.Value.ReadImage

/-!
# What options are read

Options that were read from a text carry values as they are read (`Value.Settled`), and no comment
that is null (`UpdateOptions.isSettled_of_ofJson`).  Each setting comes from a field that was read,
and setting one field after another keeps both.
-/

namespace DocumentCommand

open Reading
open Value (Settled)
open Json (Cursor)

namespace UpdateOptions

/-- The documents and values that a setting carries. -/
def Setting.values : Setting → List Value
  | .arrayFilters ds => (ds.getD []).map .document
  | .hint d | .bindings d | .sort d => (d.map .document).toList
  | .comment text => (text.map .string).toList
  | .commentValue v => v.toList
  | _ => []

/-- Options carry what their settings carry. -/
theorem mem_values_set {o : UpdateOptions} {s : Setting} {v : Value}
    (member : v ∈ (o.set s).values) : v ∈ o.values ∨ v ∈ s.values := by
  simp only [values, List.mem_append] at member ⊢
  cases s <;> simp only [set, Setting.values, List.not_mem_nil, or_false] at member ⊢ <;> grind

/-- A setting whose values are in order and whose comment is not null. -/
structure Setting.IsSettled (s : Setting) : Prop where
  values : ∀ v ∈ s.values, v.Everywhere Settled
  comment : s ≠ .commentValue (some .null)

/-- Options whose values are in order and whose comment is not null. -/
structure IsSettled (o : UpdateOptions) : Prop where
  values : o.Everywhere Settled
  comment : o.comment ≠ some .null

theorem IsSettled.set {o : UpdateOptions} {s : Setting} (before : o.IsSettled)
    (setting : s.IsSettled) : (o.set s).IsSettled := by
  constructor
  · intro v member
    rcases mem_values_set member with old | new
    · exact before.values v old
    · exact setting.values v new
  · cases s with
    | commentValue v =>
        intro null
        apply setting.comment
        exact congrArg Setting.commentValue null
    | comment text => cases text <;> exact nofun
    | _ => exact before.comment

/-- What each setting keeps, all of them keep. -/
theorem isSettled_foldl {settings : List Setting} {o : UpdateOptions} (before : o.IsSettled)
    (each : ∀ s ∈ settings, s.IsSettled) : (settings.foldl UpdateOptions.set o).IsSettled := by
  induction settings generalizing o with
  | nil => exact before
  | cons s rest ih =>
      obtain ⟨first, others⟩ := List.forall_mem_cons.1 each
      rw [List.foldl_cons]
      exact ih (before.set first) others

theorem isSettled_of_updateField {f : Field} {c : Json.Cursor} {s : Setting}
    (read : Json.format.updateField f c = .ok s) : s.IsSettled := by
  have document : ∀ {d : Option Document},
      Json.format.optional Json.format.document c = .ok d →
        ∀ v ∈ (d.map Value.document).toList, v.Everywhere Settled := by
    intro d read v member
    obtain ⟨d, given, rfl⟩ := Option.map_eq_some_iff.1 (Option.mem_toList.1 member)
    exact Json.readDocument_settled c.node (Source.optional_eq_ok read d given).2
  cases f with
  | upsert | bypassDocumentValidation | collation | hintString =>
      obtain ⟨b, -, setting⟩ := map_eq_ok_iff.1 read
      rw [← setting]
      exact ⟨nofun, nofun⟩
  | arrayFilters =>
      obtain ⟨ds, filters, setting⟩ := map_eq_ok_iff.1 read
      rw [← setting]
      refine ⟨?_, nofun⟩
      intro v member
      cases ds with
      | none => cases member
      | some ds =>
          obtain ⟨d, filter, rfl⟩ := List.mem_map.1 member
          have list := (Source.optional_eq_ok filters ds rfl).2
          obtain ⟨c, document⟩ := Source.exists_of_mem_list list d filter
          exact Json.readDocument_settled c.node document
  | hint | bindings | sort =>
      obtain ⟨d, given, setting⟩ := map_eq_ok_iff.1 read
      rw [← setting]
      exact ⟨document given, nofun⟩
  | comment =>
      obtain ⟨v, given, setting⟩ := map_eq_ok_iff.1 read
      rw [← setting]
      constructor
      · intro w member
        exact Json.readValue_settled c.node
          (Source.optional_eq_ok given w (Option.mem_toList.1 member)).2
      · intro null
        obtain ⟨isNull, value⟩ := Source.optional_eq_ok given .null (Setting.commentValue.inj null)
        have solid : c.node ≠ .null := by
          intro none
          rw [show Json.format.isNull c = Cursor.isNull c from rfl, Cursor.isNull, none] at isNull
          cases isNull
        exact Json.readValue_ne_null solid value rfl

/-- Options that were read are in order. -/
theorem isSettled_of_ofJson {text : List Char} {o : UpdateOptions} (read : ofJson text = .ok o) :
    o.IsSettled := by
  obtain ⟨result, options, read⟩ := bind_eq_ok_iff.1 read
  obtain ⟨record, -, options⟩ := bind_eq_ok_iff.1 options
  obtain ⟨settings, fields, options⟩ := bind_eq_ok_iff.1 options
  have settled : ∀ s ∈ settings, s.IsSettled :=
    Fields.forall_of_readRecord (fun f c s => isSettled_of_updateField) fields
  have whole : result.IsSettled := by
    cases options
    exact isSettled_foldl ⟨nofun, nofun⟩ settled
  split at read
  · cases read
    exact whole
  · cases read

end UpdateOptions

end DocumentCommand
