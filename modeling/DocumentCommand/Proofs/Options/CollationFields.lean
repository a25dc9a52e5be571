import DocumentCommand.Proofs.Command.Encoding
import DocumentCommand.Proofs.Options.ObjectMembers
import DocumentCommand.Proofs.Options.StoredReading

/-!
# A collation and its document

The document that is sent for a collation is the one that it is stored as, and it is read back as
the collation.  Of a document that is read as a collation the fields that are known and not null are
sent, in their order (`Collation.toDocument_inverse`).
-/

namespace DocumentCommand

open Reading

namespace Collation

/-- The collation as it is stored as a document of its own. -/
def stored (c : Collation) : Document :=
  Value.storedEntries c.toRecord

/-- What is sent of a value that a field was given: nothing of a null, and of a strength the number
in 32 bits. -/
def Field.kept? : Field → Value → Option Value
  | _, .null => none
  | .strength, .int64 n => some (.int32 n.toInt32)
  | _, v => some v

/-- What is sent of a value that a field was given, where a locale may be given as the bytes of its
text. -/
def Field.sent? (f : Field) (v : Value) : Option Value :=
  match f, v.asText? with
  | .locale, some s => some (.string s)
  | _, _ => f.kept? v

/-- The fields that are sent of a document, in order. -/
def sentFields (sent? : Field → Value → Option Value) (d : Document) : Document :=
  Field.all.filterMap fun f => ((d.get? f.name).bind (sent? f)).map (f.name, ·)

/-- Are the fields with named alternatives given as strings, where they are given and not null? -/
def NamesAreStrings (d : Document) : Prop :=
  ∀ f ∈ [Field.caseFirst, .alternate, .maxVariable], ∀ v, d.get? f.name = some v →
    v = .null ∨ ∃ s, v = .string s

theorem Field.sent?_of_ne {f : Field} (other : f ≠ .locale) (v : Value) :
    f.sent? v = f.kept? v := by
  cases f <;> first | rfl | exact absurd rfl other

theorem Field.sent?_locale {v : Value} {s : String} (text : v.asText? = some s) :
    Field.locale.sent? v = some (.string s) := by
  simp only [sent?, text]

/-! ### Fields and their settings -/

/-- The value that a field has when a setting has set it. -/
def Setting.value? : Setting → Option Value
  | .locale v => v.map .string
  | .caseLevel v => v.map .bool
  | .caseFirst v => v.map fun a => .string (Named.name a)
  | .strength v => v.map fun s => .int32 s.level
  | .numericOrdering v => v.map .bool
  | .alternate v => v.map fun a => .string (Named.name a)
  | .maxVariable v => v.map fun a => .string (Named.name a)
  | .normalization v => v.map .bool
  | .backwards v => v.map .bool

theorem fieldValue?_set (c : Collation) (s : Setting) :
    (c.set s).fieldValue? s.field = s.value? := by
  cases s <;> rfl

theorem fieldValue?_set_of_ne (c : Collation) (s : Setting) (f : Field) (differ : s.field ≠ f) :
    (c.set s).fieldValue? f = c.fieldValue? f := by
  cases s <;> cases f <;> first | rfl | exact absurd rfl differ

end Collation

namespace Format

/-! ### Fields that are read -/

theorem null_or_read {α : Type} {read : Value → Except Problem α} {v : Value} {result : Option α}
    (done : Value.format.optional read v = .ok result) :
    v = .null ∧ result = none ∨ v ≠ .null ∧ ∃ a, result = some a ∧ read v = .ok a := by
  obtain ⟨null, asked, done⟩ := bind_eq_ok_iff.1 done
  obtain rfl := Except.ok.inj asked
  cases v with
  | null =>
      cases done
      exact .inl ⟨rfl, rfl⟩
  | _ =>
      obtain ⟨a, read, done⟩ := bind_eq_ok_iff.1 done
      cases done
      exact .inr ⟨Value.noConfusion, a, rfl, read⟩

theorem asText?_of_string {v : Value} {s : String} (read : Value.format.string v = .ok s) :
    v.asText? = some s := by
  have read : v.readString = .ok s := read
  rw [Value.readString] at read
  cases text : v.asText? with
  | some t =>
      rw [text] at read
      exact congrArg some (Except.ok.inj read)
  | none =>
      rw [text] at read
      dsimp only at read
      split at read <;> cases read

theorem eq_of_bool {v : Value} {b : Bool} (read : Value.format.bool v = .ok b) : v = .bool b := by
  have read : v.readBool = .ok b := read
  cases v with
  | bool c => rw [Except.ok.inj read]
  | _ => cases read

theorem name_of_choice {α : Type} [Named α] {s : String} {a : α}
    (read : Value.format.choice α (.string s) = .ok a) : Named.name a = s := by
  obtain ⟨name, variant, read⟩ := bind_eq_ok_iff.1 read
  have variant : Value.knownName (Named.names α) s = .ok name := variant
  obtain rfl : s = name := by
    rw [Value.knownName] at variant
    split at variant <;> cases variant
    rfl
  cases found : Named.ofName? (α := α) s with
  | none =>
      rw [found] at read
      cases read
  | some b =>
      rw [found] at read
      cases read
      simpa [Named.ofName?] using List.find?_some found

theorem kept?_of_strength {v : Value} {s : Strength} (read : Value.format.strength v = .ok s) :
    Collation.Field.strength.kept? v = some (.int32 s.level) := by
  obtain ⟨n, number, read⟩ := bind_eq_ok_iff.1 read
  have number : v.readInt32 = .ok n := number
  have level : s.level = n := by
    cases found : Strength.ofLevel? n with
    | none =>
        rw [Strength.ofNumber, found] at read
        cases read
    | some t =>
        rw [Strength.ofNumber, found] at read
        cases read
        simpa [Strength.ofLevel?] using List.find?_some found
  rw [level]
  have narrow : ∀ m : Int, v.asInteger? = some m → n.toInt = m := by
    intro m integer
    rw [Value.readInt32, integer] at number
    cases fits : Integer.int32? m with
    | none =>
        simp only [fits] at number
        cases number
    | some k =>
        simp only [fits] at number
        cases number
        exact Integer.int32?_eq_some_iff.1 fits
  cases v with
  | int32 k => exact congrArg (some ∘ Value.int32) (Int32.toInt_inj.1 (narrow _ rfl)).symm
  | int64 k =>
      have same : k.toInt32 = n := by
        rw [← Int64.ofInt_toInt k, Int64.toInt32_ofInt, ← narrow _ rfl, Int32.ofInt_toInt]
      exact congrArg (some ∘ Value.int32) same
  | _ => cases number

/-- What is sent of a field that is read is what is sent of the value that it was given. -/
theorem value?_of_collationField {f : Collation.Field} {v : Value} {s : Collation.Setting}
    (names : f ∈ [Collation.Field.caseFirst, .alternate, .maxVariable] →
      v = .null ∨ ∃ t, v = .string t)
    (done : Value.format.collationField f v = .ok s) : s.value? = f.sent? v := by
  cases f with
  | locale =>
      obtain ⟨result, given, rfl⟩ := map_eq_ok_iff.1 done
      rcases null_or_read given with ⟨rfl, rfl⟩ | ⟨-, t, rfl, read⟩
      · rfl
      · exact (Collation.Field.sent?_locale (asText?_of_string read)).symm
  | caseLevel | numericOrdering | normalization | backwards =>
      obtain ⟨result, given, rfl⟩ := map_eq_ok_iff.1 done
      rcases null_or_read given with ⟨rfl, rfl⟩ | ⟨-, b, rfl, read⟩
      · rfl
      · rw [eq_of_bool read]
        rfl
  | strength =>
      obtain ⟨result, given, rfl⟩ := map_eq_ok_iff.1 done
      rcases null_or_read given with ⟨rfl, rfl⟩ | ⟨-, b, rfl, read⟩
      · rfl
      · exact (kept?_of_strength read).symm
  | caseFirst | alternate | maxVariable =>
      obtain ⟨result, given, rfl⟩ := map_eq_ok_iff.1 done
      rcases null_or_read given with ⟨rfl, rfl⟩ | ⟨solid, a, rfl, read⟩
      · rfl
      · rcases names (by decide) with null | ⟨t, rfl⟩
        · exact absurd null solid
        · rw [← name_of_choice read]
          rfl

end Format

namespace Collation

/-- A field of a collation that is read of a document is sent as what was given. -/
theorem fieldValue?_of_ofDocument {d : Document} {c : Collation} (names : NamesAreStrings d)
    (read : ofDocument d = .ok c) (f : Field) :
    c.fieldValue? f = (d.get? f.name).bind f.sent? := by
  have found : Value.format.collationReader.fields.find? f.name = some f := by
    cases f <;> decide
  have record : Value.format.record .collation (.document d)
      = .ok (.named ⟨d.map fun e => (.ok e.1, e.2), .open⟩) := rfl
  have done := (Format.collation_of_named record).symm.trans read
  obtain ⟨present, absent⟩ :=
    RecordReader.get_of_ofMembers fieldValue?_set_of_ne fieldValue?_set done
  cases got : d.get? f.name with
  | none =>
      rw [absent f, Option.bind_none]
      · cases f <;> rfl
      · rw [Fields.mem_given_iff]
        rintro ⟨_, member, name, named, foundHere⟩
        obtain ⟨e, entry, rfl⟩ := List.mem_map.1 member
        obtain rfl := Except.ok.inj named
        have same : f.name = e.1 := Fields.name_of_find?_eq_some foundHere
        rw [Document.get?_eq_none_iff, same] at got
        exact got (List.mem_map_of_mem entry)
  | some v =>
      have placed : (f, v) ∈ Value.format.collationReader.fields.given
          (d.map fun e => ((.ok e.1 : Except Problem String), e.2)) := by
        refine List.mem_filterMap.2 ⟨(.ok f.name, v), List.mem_map.2 ⟨(f.name, v), ?_, rfl⟩, ?_⟩
        · exact Document.mem_of_get? got
        · simp [found]
      obtain ⟨s, read, value⟩ := present f v placed
      rw [value, Option.bind_some]
      exact Format.value?_of_collationField (fun named => names f named v got) read

/-- A document that is read as a collation is sent with its fields that are known and not null, in
order. -/
theorem toDocument_of_ofDocument {d : Document} {c : Collation} (names : NamesAreStrings d)
    (read : ofDocument d = .ok c) : c.toDocument = sentFields Field.sent? d := by
  rw [toDocument_eq_toRecord, toRecord, sentFields]
  simp only [fieldValue?_of_ofDocument names read]

/-- Without bytes for a locale all values are sent as they are given, but for the width of a
strength. -/
theorem sentFields_sent? {d : Document}
    (noBytes : ∀ subtype bytes, d.get? "locale" ≠ some (.binary subtype bytes)) :
    sentFields Field.sent? d = sentFields Field.kept? d := by
  have same : ∀ f : Field, (d.get? f.name).bind f.sent? = (d.get? f.name).bind f.kept? := by
    intro f
    by_cases locale : f = .locale
    · subst locale
      cases got : d.get? Field.locale.name with
      | none => rfl
      | some v =>
          cases v with
          | binary subtype bytes => exact absurd got (noBytes subtype bytes)
          | _ => rfl
    · congr 1
      exact funext (Field.sent?_of_ne locale)
  simp only [sentFields, same]

/-- The document of a collation is what the collation is stored as, and is read back as the
collation.  Of a document that is read as a collation all fields are sent that are known and not
null, in order and with their values, but for two changes: a strength is sent as 32 bits, and a
locale that is given as bytes is sent as the text that they are. -/
theorem toDocument_inverse :
    (∀ c : Collation, c.toDocument = c.stored) ∧
    (∀ c : Collation, ofDocument c.toDocument = .ok c) ∧
    (∀ (d : Document) (c : Collation), NamesAreStrings d → ofDocument d = .ok c →
      c.toDocument = sentFields Field.sent? d) ∧
    ∀ (d : Document) (c : Collation), NamesAreStrings d → ofDocument d = .ok c →
      (∀ subtype bytes, d.get? "locale" ≠ some (.binary subtype bytes)) →
      c.toDocument = sentFields Field.kept? d := by
  refine ⟨fun c => ?stored, fun c => ?back, fun d c names read => ?sent,
    fun d c names read noBytes => ?kept⟩
  case stored => rw [toDocument_eq_toRecord, stored, storedEntries_toRecord]
  case back =>
    rw [toDocument_eq_toRecord]
    exact Format.collation_stored c
  case sent => exact toDocument_of_ofDocument names read
  case kept => rw [toDocument_of_ofDocument names read, sentFields_sent? noBytes]

/-- A document with an unknown field, a null, a wide strength and its fields out of order. -/
def shuffled : Document :=
  [("strength", .int64 2), ("x", .null), ("alternate", .string "shifted"), ("backwards", .null),
    ("locale", .string "fr")]

/-- What that document is read as. -/
def shifted : Collation :=
  { locale := some "fr", strength := some .secondary, alternate := some .shifted }

theorem toDocument_inverse_shuffled :
    NamesAreStrings shuffled ∧ ofDocument shuffled = .ok shifted ∧
    (∀ subtype bytes, shuffled.get? "locale" ≠ some (.binary subtype bytes)) ∧
    shifted.toDocument = sentFields Field.kept? shuffled ∧
    sentFields Field.kept? shuffled
      = [("locale", .string "fr"), ("strength", .int32 2), ("alternate", .string "shifted")] := by
  have names : NamesAreStrings shuffled := by
    intro f member v got
    simp only [List.mem_cons, List.not_mem_nil, or_false] at member
    rcases member with rfl | rfl | rfl
    · cases got
    · cases got
      exact .inr ⟨_, rfl⟩
    · cases got
  have noBytes : ∀ subtype bytes, shuffled.get? "locale" ≠ some (.binary subtype bytes) := by
    intro subtype bytes got
    cases got
  exact ⟨names, rfl, noBytes, toDocument_inverse.2.2.2 _ _ names rfl noBytes, rfl⟩

/-- A locale that is given as bytes is not sent as bytes. -/
theorem not_sent_as_given :
    ¬∀ (d : Document) (c : Collation), NamesAreStrings d → ofDocument d = .ok c →
      c.toDocument = sentFields Field.kept? d := by
  intro all
  let d : Document := [("locale", .binary Value.genericSubtype [0x66, 0x72])]
  have names : NamesAreStrings d := by
    intro f member v got
    simp only [List.mem_cons, List.not_mem_nil, or_false] at member
    rcases member with rfl | rfl | rfl <;> cases got
  have read : ofDocument d = .ok { locale := some "fr" } := rfl
  have same : [("locale", Value.string "fr")]
      = [("locale", .binary Value.genericSubtype [0x66, 0x72])] := all d _ names read
  cases same

end Collation

end DocumentCommand
