import DocumentCommand.Command.Update
import DocumentCommand.Proofs.Options.CollationReading
import DocumentCommand.Proofs.Value.Lookup

/-!
# What the document of an update tells

The document of an update determines the update, except for the name of a hint that is not sent
because a document is; together with the log it determines the update entirely
(`Update.toDocument_eq_iff`).  Each field is recovered by looking it up under its name, and a name
that is not sent by taking the fixed words off the record of the log.
-/

namespace DocumentCommand

open Document (field)

theorem Value.documents_inj {as bs : List Document} :
    Value.documents as = Value.documents bs ↔ as = bs := by
  rw [documents, documents, array.injEq]
  exact List.map_inj_right fun _ _ => document.inj

/-- A collation is sent as its record. -/
theorem Collation.toDocument_eq_toRecord (c : Collation) : c.toDocument = c.toRecord := by
  simp only [toRecord, Field.all, Document.filterMap_cons_field, List.filterMap_nil,
    List.append_nil, toDocument, List.append_assoc]
  rfl

theorem Collation.toDocument_inj {a b : Collation} (same : a.toDocument = b.toDocument) :
    a = b := by
  have read := Format.collation_toRecord a 0
  rw [← toDocument_eq_toRecord, same, toDocument_eq_toRecord, Format.collation_toRecord b 0] at read
  exact (Except.ok.inj read).symm

namespace Command

theorem Modification.toValue_inj {a b : Modification} (same : a.toValue = b.toValue) : a = b := by
  cases a with
  | document d =>
      cases b with
      | document e => exact congrArg document (Value.document.inj same)
      | pipeline stages => cases same
  | pipeline stages =>
      cases b with
      | document e => cases same
      | pipeline others => exact congrArg pipeline (Value.documents_inj.1 same)

namespace Update

/-- What is sent as the hint tells the document, and the name where there is no document. -/
theorem hint?_inj {a b : UpdateOptions} (same : hint? a = hint? b) :
    a.hint = b.hint ∧ (a.hint = none → a.hintString = b.hintString) := by
  cases docA : a.hint with
  | none =>
      cases docB : b.hint with
      | none =>
          simp only [hint?, docA, docB] at same
          exact ⟨rfl, fun _ => (Option.map_inj_right fun _ _ => Value.string.inj).1 same⟩
      | some e =>
          simp only [hint?, docA, docB] at same
          cases name : a.hintString <;> simp [name] at same
  | some d =>
      cases docB : b.hint with
      | none =>
          simp only [hint?, docA, docB] at same
          cases name : b.hintString <;> simp [name] at same
      | some e =>
          simp only [hint?, docA, docB, Option.some.injEq, Value.document.injEq] at same
          exact ⟨congrArg some same, fun none => by cases none⟩

/-- The update under another name for the hint. -/
def withHintString (u : Update) (name : Option String) : Update :=
  { u with options := { u.options with hintString := name } }

/-- Two flags that are sent only when they are set. -/
theorem flag_inj {a b : Bool}
    (same : (if a then some (Value.bool true) else none) = if b then some (.bool true) else none) :
    a = b := by
  cases a <;> cases b <;> first | rfl | cases same

/-- The options and the filter that a statement tells. -/
theorem statement_inj {a b : Update} (same : a.statement = b.statement) :
    (a.filter = b.filter ∧ a.modification = b.modification ∧ a.multi = b.multi) ∧
      a.options.upsert = b.options.upsert ∧ a.options.collation = b.options.collation ∧
      a.options.arrayFilters = b.options.arrayFilters ∧ hint? a.options = hint? b.options ∧
      a.options.sort = b.options.sort := by
  have get : ∀ key, a.statement.get? key = b.statement.get? key := fun key => by rw [same]
  have filter := get "q"
  have modification := get "u"
  have multi := get "multi"
  have upsert := get "upsert"
  have collation := get "collation"
  have arrayFilters := get "arrayFilters"
  have hint := get "hint"
  have sort := get "sort"
  simp only [statement, Document.get?_append, Document.get?_cons, Document.get?_nil,
    Document.get?_field, String.reduceEq, if_true, if_false, Option.none_or, Option.or_none,
    Option.some.injEq, Value.document.injEq]
    at filter modification multi upsert collation arrayFilters hint sort
  exact ⟨⟨filter, Modification.toValue_inj modification, flag_inj multi⟩, flag_inj upsert,
    (Option.map_inj_right fun _ _ same => Collation.toDocument_inj (Value.document.inj same)).1
      collation,
    (Option.map_inj_right fun _ _ => Value.documents_inj.1).1 arrayFilters, hint,
    (Option.map_inj_right fun _ _ => Value.document.inj).1 sort⟩

/-- What the document of an update tells beside its statement. -/
theorem document_inj {a b : Update} (same : a.document = b.document) :
    a.statement = b.statement ∧ a.collection = b.collection ∧
      a.options.bypassDocumentValidation = b.options.bypassDocumentValidation ∧
      a.options.comment = b.options.comment ∧ a.options.bindings = b.options.bindings := by
  have get : ∀ key, a.document.get? key = b.document.get? key := fun key => by rw [same]
  have collection := get "update"
  have statements := get "updates"
  have bypass := get "bypassDocumentValidation"
  have comment := get "comment"
  have bindings := get "let"
  simp only [document, Document.get?_append, Document.get?_cons, Document.get?_nil,
    Document.get?_field, String.reduceEq, if_true, if_false, Option.none_or, Option.or_none,
    Option.some.injEq, Value.string.injEq, Value.documents_inj, List.cons.injEq, and_true]
    at collection statements bypass comment bindings
  exact ⟨statements, collection, (Option.map_inj_right fun _ _ => Value.bool.inj).1 bypass, comment,
    (Option.map_inj_right fun _ _ => Value.document.inj).1 bindings⟩

/-- Updates with the same document differ at most in the name for the hint. -/
theorem eq_withHintString {a b : Update} (same : a.document = b.document) :
    b = a.withHintString b.options.hintString := by
  obtain ⟨statement, collection, bypass, comment, bindings⟩ := document_inj same
  obtain ⟨⟨filter, modification, multi⟩, upsert, collation, arrayFilters, hint, sort⟩ :=
    statement_inj statement
  simp only [withHintString, collection, filter, modification, multi, upsert, bypass, collation,
    arrayFilters, (hint?_inj hint).1, comment, bindings, sort]

/-- The name for the hint does not show in the document when a document is sent for the hint. -/
theorem document_withHintString {u : Update} (given : u.options.hint.isSome)
    (name : Option String) : (u.withHintString name).document = u.document := by
  obtain ⟨d, hint⟩ := Option.isSome_iff_exists.1 given
  have sent : hint? (u.withHintString name).options = hint? u.options := by
    simp only [hint?, withHintString, hint]
  have statement : (u.withHintString name).statement = u.statement := by
    rw [Update.statement, Update.statement, sent]
    rfl
  rw [document, document, statement]
  rfl

/-- The record of a name that is not sent tells the name. -/
theorem unsentHint?_inj {a b : Update} (given : a.options.hint.isSome)
    (sameHint : a.options.hint = b.options.hint) (sameCollection : a.collection = b.collection)
    (same : a.unsentHint? = b.unsentHint?) : a.options.hintString = b.options.hintString := by
  obtain ⟨d, hint⟩ := Option.isSome_iff_exists.1 given
  cases nameA : a.options.hintString with
  | none =>
      cases nameB : b.options.hintString with
      | none => rfl
      | some n => simp [unsentHint?, ← sameHint, hint, nameA, nameB] at same
  | some m =>
      cases nameB : b.options.hintString with
      | none => simp [unsentHint?, ← sameHint, hint, nameA, nameB] at same
      | some n =>
          simp only [unsentHint?, ← sameHint, hint, nameA, nameB, sameCollection,
            Option.some.injEq, LogRecord.mk.injEq, true_and, String.append_left_inj,
            String.append_right_inj] at same
          rw [same]

/-- The document of an update tells it up to the name for the hint where a document is sent for it.
-/
theorem document_eq_document {a b : Update} (same : a.document = b.document) :
    a = b ∨ a.options.hint.isSome ∧ ∃ name, b = a.withHintString name := by
  have equal := eq_withHintString same
  have hint := (statement_inj (document_inj same).1).2.2.2.2.1
  cases given : a.options.hint with
  | some d => exact .inr ⟨rfl, _, equal⟩
  | none =>
      rw [← (hint?_inj hint).2 given] at equal
      exact .inl equal.symm

/-- The document and the log of an update together tell the update.  The document alone tells it up
to the name for the hint where a document is sent for it. -/
theorem toDocument_eq_iff (a b : Update) :
    (a.toDocument = b.toDocument ↔ a = b) ∧
      (a.document = b.document ↔
        a = b ∨ a.options.hint.isSome ∧ ∃ name, b = a.withHintString name) := by
  constructor
  · constructor
    · intro same
      have document : a.document = b.document := congrArg Logged.result same
      have records : a.unsentHint?.toList = b.unsentHint?.toList := congrArg Logged.records same
      have record : a.unsentHint? = b.unsentHint? := by
        rw [← Option.head?_toList (o := a.unsentHint?), records, Option.head?_toList]
      rcases document_eq_document document with equal | ⟨given, name, rfl⟩
      · exact equal
      · have sameName : a.options.hintString = name :=
          unsentHint?_inj (b := a.withHintString name) given rfl rfl record
        rw [← sameName]
        rfl
    · rintro rfl
      rfl
  · constructor
    · exact document_eq_document
    · rintro (rfl | ⟨given, name, rfl⟩)
      · rfl
      · exact (document_withHintString given name).symm

end Update
end Command
end DocumentCommand
