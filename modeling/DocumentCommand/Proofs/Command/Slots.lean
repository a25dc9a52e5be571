import DocumentCommand.Proofs.Command.StoredOptions
import DocumentCommand.Proofs.Options.SetterRuns

/-!
# The slots of options in a command

Every option has its slot in the document of a command, beside the statement or in it, and the two
forms of a hint share one (`slotOf`).  The slot has the value of the option (`Update.get?_slotOf`),
and what stands in any slot depends on the options of that slot alone (`Update.get?_slot_congr`).
So an option that is given another value disturbs nothing else (`Update.toDocument_set`).
-/

namespace DocumentCommand

open Document (field)

namespace Document

/-- A field behind others tells the same in two documents where they and the field do. -/
theorem get?_append_field_congr {d d' : Document} {key name : String} {v v' : Option Value}
    (before : d.get? key = d'.get? key) (same : key = name → v = v') :
    get? (d ++ field name v) key = get? (d' ++ field name v') key := by
  rw [get?_append, get?_append, get?_field, get?_field, before]
  by_cases here : key = name
  · rw [if_pos here, if_pos here, same here]
  · rw [if_neg here, if_neg here]

/-- The names of the first document that the second one has too, in the order of the first. -/
def shared (a b : Document) : List String :=
  a.names.filter (· ∈ b.names)

/-- Names in the order of a list are what the list has of them. -/
theorem eq_filter_of_sublist {order names : List String} (distinct : order.Nodup)
    (keys : names.Sublist order) : names = order.filter (· ∈ names) := by
  induction keys with
  | slnil => rfl
  | cons key keys ih =>
      obtain ⟨first, others⟩ := List.nodup_cons.1 distinct
      rw [List.filter_cons_of_neg (by simpa using fun member => first (keys.subset member))]
      exact ih others
  | @cons_cons names order key keys ih =>
      obtain ⟨first, others⟩ := List.nodup_cons.1 distinct
      have later : order.filter (· ∈ key :: names) = order.filter (· ∈ names) := by
        apply List.filter_congr
        intro name member
        have differs : name ≠ key := fun same => first (same ▸ member)
        simp [differs]
      rw [List.filter_cons_of_pos (by simp), later, ← ih others]

/-- Documents whose names come in one order have their common names in the same order. -/
theorem shared_comm {order : List String} (distinct : order.Nodup) {a b : Document}
    (inA : a.names.Sublist order) (inB : b.names.Sublist order) : shared a b = shared b a := by
  have both : ∀ {a b : Document}, a.names.Sublist order →
      shared a b = order.filter fun name => decide (name ∈ b.names) && decide (name ∈ a.names) := by
    intro a b keys
    rw [shared, ← List.filter_filter, ← eq_filter_of_sublist distinct keys]
  rw [both inA, both inB]
  exact List.filter_congr fun name _ => Bool.and_comm _ _

end Document

namespace Command

/-- A place for a value in the document of a command. -/
inductive Slot where
  /-- Under a key of the document, beside the statement. -/
  | beside (key : String)
  /-- Under a key of the only statement. -/
  | inside (key : String)
deriving DecidableEq, Repr

/-- The only statement of the document of a command. -/
def statement? (sent : Document) : Option Document :=
  match sent.get? "updates" with
  | some (.array [.document statement]) => some statement
  | _ => none

/-- What stands in a slot. -/
def Slot.get? (sent : Document) : Slot → Option Value
  | .beside key => sent.get? key
  | .inside key => (statement? sent).bind fun statement => statement.get? key

/-- The slot of an option. -/
def slotOf : UpdateOptions.Field → Slot
  | .upsert => .inside "upsert"
  | .bypassDocumentValidation => .beside "bypassDocumentValidation"
  | .collation => .inside "collation"
  | .arrayFilters => .inside "arrayFilters"
  | .hint => .inside "hint"
  | .hintString => .inside "hint"
  | .comment => .beside "comment"
  | .bindings => .beside "let"
  | .sort => .inside "sort"

/-- What options have for the slot of an option: an upsert only when it is wanted, and the name of a
hint only when there is no document. -/
def slotValue? (o : UpdateOptions) : UpdateOptions.Field → Option Value
  | .upsert => if o.upsert then some (.bool true) else none
  | .hint | .hintString => (o.fieldValue? .hint).or (o.fieldValue? .hintString)
  | f => o.fieldValue? f

/-- The slots that a slot is part of: itself, and that of the statements where it is in one. -/
def Slot.Within : Slot → Slot → Prop
  | slot, outer => slot = outer ∨ outer = .beside "updates" ∧ ∃ key, slot = .inside key

/-- Two documents of a command differ in one slot at most. -/
structure AgreeBut (slot : Slot) (a b : Document) : Prop where
  elsewhere : ∀ other, ¬ slot.Within other → other.get? a = other.get? b
  /-- The keys of both stand in the same order, and so do those of their statements. -/
  order : a.shared b = b.shared a
  statements : ∃ s t, statement? a = some s ∧ statement? b = some t ∧ s.shared t = t.shared s

namespace Update

variable (u : Update) {o p : UpdateOptions}

theorem statement?_document : statement? u.document = some u.statement := by
  have found : u.document.get? "updates" = some (Value.documents [u.statement]) := by
    simp [document, Document.get?_cons]
  rw [statement?, found]
  rfl

theorem get?_inside (key : String) : (Slot.inside key).get? u.document = u.statement.get? key := by
  rw [Slot.get?, statement?_document, Option.bind_some]

/-- Every option stands in its slot. -/
theorem get?_slotOf (f : UpdateOptions.Field) :
    (slotOf f).get? u.document = slotValue? u.options f := by
  cases f with
  | bypassDocumentValidation => exact u.get?_document (f := .bypassDocumentValidation) (by decide)
  | comment => exact u.get?_document (f := .comment) (by decide)
  | bindings => exact u.get?_document (f := .bindings) (by decide)
  | collation => exact (u.get?_inside _).trans (u.get?_statement (f := .collation) (by decide))
  | arrayFilters =>
      exact (u.get?_inside _).trans (u.get?_statement (f := .arrayFilters) (by decide))
  | sort => exact (u.get?_inside _).trans (u.get?_statement (f := .sort) (by decide))
  | upsert =>
      rw [slotOf, get?_inside, slotValue?]
      simp [statement, Document.get?_append, Document.get?_cons, Document.get?_field]
  | hint | hintString =>
      rw [slotOf, get?_inside, slotValue?, ← hint?_eq_or]
      simp [statement, Document.get?_append, Document.get?_cons, Document.get?_field]

/-- Options that agree on all that have their slot under a key agree on each of them. -/
theorem get_eq_of_slot {place : String → Slot} {key name : String}
    (same : ∀ f, slotOf f = place key → o.get f = p.get f) (f : UpdateOptions.Field)
    (slot : slotOf f = place name) (here : key = name) : o.get f = p.get f := by
  subst here
  exact same f slot

/-- What the statement has under a key depends on the options that have their slot there. -/
theorem get?_statement_congr {key : String}
    (same : ∀ f, slotOf f = .inside key → o.get f = p.get f) :
    (u.withOptions o).statement.get? key = (u.withOptions p).statement.get? key := by
  -- The fields of the statement from the last one to the first.
  apply Document.get?_append_field_congr _ fun here =>
    congrArg (Option.map Value.document) (get_eq_of_slot same .sort rfl here)
  apply Document.get?_append_field_congr _ fun here => by
    have doc : o.hint = p.hint := get_eq_of_slot same .hint rfl here
    have name : o.hintString = p.hintString := get_eq_of_slot same .hintString rfl here
    simp only [hint?, withOptions, doc, name]
  apply Document.get?_append_field_congr _ fun here =>
    congrArg (Option.map Value.documents) (get_eq_of_slot same .arrayFilters rfl here)
  apply Document.get?_append_field_congr _ fun here =>
    congrArg (Option.map fun c => Value.document c.toDocument)
      (get_eq_of_slot same .collation rfl here)
  apply Document.get?_append_field_congr _ fun _ => rfl
  apply Document.get?_append_field_congr _ fun here =>
    congrArg (fun b : Bool => if b then some (Value.bool true) else none)
      (get_eq_of_slot same .upsert rfl here)
  rfl

/-- What the document has beside the statement depends on the options that have their slot there.
-/
theorem get?_document_congr {key : String} (apart : key ≠ "updates")
    (same : ∀ f, slotOf f = .beside key → o.get f = p.get f) :
    (u.withOptions o).document.get? key = (u.withOptions p).document.get? key := by
  apply Document.get?_append_field_congr _ fun here =>
    congrArg (Option.map Value.document) (get_eq_of_slot same .bindings rfl here)
  apply Document.get?_append_field_congr _ fun here => get_eq_of_slot same .comment rfl here
  apply Document.get?_append_field_congr _ fun here =>
    congrArg (Option.map Value.bool) (get_eq_of_slot same .bypassDocumentValidation rfl here)
  simp only [Document.get?_cons, if_neg apart, withOptions]

/-- What stands in a slot depends on the options of the slot. -/
theorem get?_slot_congr {slot : Slot} (apart : slot ≠ .beside "updates")
    (same : ∀ f, slotOf f = slot → o.get f = p.get f) :
    slot.get? (u.withOptions o).document = slot.get? (u.withOptions p).document := by
  cases slot with
  | beside key => exact u.get?_document_congr (fun here => apart (congrArg Slot.beside here)) same
  | inside key =>
      rw [get?_inside, get?_inside]
      exact u.get?_statement_congr same

/-- An option beside the statement does not show in it. -/
theorem statement_set_of_beside {s : UpdateOptions.Setting} {key : String}
    (beside : slotOf s.field = .beside key) :
    (u.withOptions (u.options.set s)).statement = u.statement := by
  cases s with
  | bypassDocumentValidation v | comment t | commentValue v | bindings v => rfl
  | _ => cases beside

/-- An option that is given another value changes its own slot at most. -/
theorem agreeBut_set (s : UpdateOptions.Setting) :
    AgreeBut (slotOf s.field) u.document (u.withOptions (u.options.set s)).document where
  elsewhere other outside := by
    have differ : ∀ f, slotOf f = other → u.options.get f = (u.options.set s).get f := by
      rintro f rfl
      apply (UpdateOptions.get_set_of_ne _ _).symm
      rintro rfl
      exact outside (.inl rfl)
    by_cases statements : other = .beside "updates"
    · cases slot : slotOf s.field with
      | inside key => exact absurd (.inr ⟨statements, key, slot⟩) outside
      | beside key =>
          have same := u.statement_set_of_beside slot
          rw [statements]
          simp [Slot.get?, document, Document.get?_cons, same]
    · exact u.get?_slot_congr statements differ
  order := Document.shared_comm (by decide) u.names_document_sublist
    (names_document_sublist _)
  statements := ⟨u.statement, _, u.statement?_document, statement?_document _,
    Document.shared_comm (by decide) u.names_statement_sublist (names_statement_sublist _)⟩

/-- An option that is given another value changes its own slot of the document at most, and no two
keys change places.  The slot has the value of the option, and that of the two forms of a hint has
the document, or the name where there is none: so the name does not show as long as there is a
document, and is there, if it is set, when the document is cleared.  The keys of the document and of
its statement come from two lists, in their order, none of them twice. -/
theorem toDocument_set :
    (∀ (u : Update) (s : UpdateOptions.Setting),
      AgreeBut (slotOf s.field) u.toDocument.result
        (u.withOptions (u.options.set s)).toDocument.result) ∧
    (∀ (u : Update) (f : UpdateOptions.Field),
      (slotOf f).get? u.toDocument.result = slotValue? u.options f) ∧
    (∀ u : Update,
      u.toDocument.result.names.Sublist
        ["update", "updates", "ordered", "bypassDocumentValidation", "comment", "let"] ∧
      u.toDocument.result.names.Nodup ∧
      ∃ statement, statement? u.toDocument.result = some statement ∧
        statement.names.Sublist
          ["q", "u", "upsert", "multi", "collation", "arrayFilters", "hint", "sort"] ∧
        statement.names.Nodup) ∧
    (∀ (u : Update) (name : Option String), u.options.hint.isSome →
      (u.withOptions (u.options.set (.hintString name))).toDocument.result
        = u.toDocument.result) ∧
    ∀ u : Update,
      (Slot.inside "hint").get? (u.withOptions (u.options.set (.hint none))).toDocument.result
        = u.options.hintString.map .string := by
  refine ⟨agreeBut_set, get?_slotOf, ?keys,
    fun u name given => document_withHintString given name, ?cleared⟩
  case keys =>
    intro u
    refine ⟨u.names_document_sublist, u.names_document_sublist.nodup (by decide), u.statement,
      u.statement?_document, u.names_statement_sublist, u.names_statement_sublist.nodup (by decide)⟩
  case cleared =>
    intro u
    exact (get?_slotOf (u.withOptions (u.options.set (.hint none))) .hint).trans Option.none_or

/-- An update with both forms of a hint, whose documents have keys of commands for names. -/
def hinted : Update where
  collection := "c"
  filter := [("hint", .string "q"), ("updates", .null)]
  modification := .document [("hint", .document [("u", .null)])]
  multi := true
  options := { hint := some [("a", .int32 1)], hintString := some "a_1", sort := some [] }

theorem toDocument_set_hinted :
    hinted.options.hint.isSome ∧
      (hinted.withOptions (hinted.options.set (.hintString none))).toDocument.result
        = hinted.toDocument.result := by
  have given : hinted.options.hint.isSome := rfl
  exact ⟨given, toDocument_set.2.2.2.1 hinted none given⟩

end Update
end Command
end DocumentCommand
