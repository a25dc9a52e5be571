import DocumentCommand.Options.Reading
import DocumentCommand.Proofs.Json.Scanning
import DocumentCommand.Proofs.Options.SetterRuns
import DocumentCommand.Proofs.Reading.Members

/-!
# The members of an options object

Of the members of a JSON object that is read as options only those under the name of a field matter,
and each at most once: they may stand in any order, members under other names may stand anywhere
among them with any JSON as their value, and so may a null for a field that is not there, but no
second member for a field (`UpdateOptions.ofJson_onlyFieldsMatter`).  The same holds of the members
of the collation within the options.
-/

namespace DocumentCommand

open Reading
open Json (Cursor Ending)
open Json.Grammar

/-! ### Options and collations as records -/

/-- The field that a setting of a collation sets. -/
def Collation.Setting.field : Collation.Setting → Collation.Field
  | .locale _ => .locale
  | .caseLevel _ => .caseLevel
  | .caseFirst _ => .caseFirst
  | .strength _ => .strength
  | .numericOrdering _ => .numericOrdering
  | .alternate _ => .alternate
  | .maxVariable _ => .maxVariable
  | .normalization _ => .normalization
  | .backwards _ => .backwards

/-- Settings of different fields of a collation may change places. -/
theorem Collation.set_comm (c : Collation) {s t : Collation.Setting} (differ : s.field ≠ t.field) :
    (c.set s).set t = (c.set t).set s := by
  cases s <;> cases t <;> first | rfl | exact absurd rfl differ

namespace Format

variable {ν : Type} (F : Format ν)

/-- Options as a record that is read by name. -/
def optionsReader : RecordReader UpdateOptions.Field ν UpdateOptions.Setting UpdateOptions where
  fields := ⟨UpdateOptions.Field.all, UpdateOptions.Field.name⟩
  read := F.updateField
  skip := F.skip
  field := UpdateOptions.Setting.field
  set := UpdateOptions.set
  start := {}
  field_read := by
    intro f v s read
    cases f <;> obtain ⟨value, -, rfl⟩ := map_eq_ok_iff.1 read <;> rfl
  set_comm := UpdateOptions.set_comm

/-- Collations as records that are read by name. -/
def collationReader : RecordReader Collation.Field ν Collation.Setting Collation where
  fields := ⟨Collation.Field.all, Collation.Field.name⟩
  read := F.collationField
  skip := F.skip
  field := Collation.Setting.field
  set := Collation.set
  start := {}
  field_read := by
    intro f v s read
    cases f <;> obtain ⟨value, -, rfl⟩ := map_eq_ok_iff.1 read <;> rfl
  set_comm := Collation.set_comm

variable {F} {v : ν} {run : Run (Except Problem String × ν)}

theorem updateOptions_of_named (named : F.record .updateOptions v = .ok (.named run)) :
    F.updateOptions v = F.optionsReader.ofMembers run.ending run.items := by
  rw [updateOptions, named]
  rfl

theorem collation_of_named (named : F.record .collation v = .ok (.named run)) :
    F.collation v = F.collationReader.ofMembers run.ending run.items := by
  rw [collation, named]
  rfl

end Format

/-! ### The members of an object -/

/-- Of the members of an object only those under a known name matter, and each at most once.  The
object reads as `result`, and `parse` reads what it is with other members. -/
structure OnlyFieldsMatter {τ : Type} (known nullable : List String)
    (parse : List Member → Except Problem τ) (members : List Member) (result : τ) : Prop where
  /-- Members may stand in any order. -/
  permuted : ∀ members', members'.Perm members → parse members' = .ok result
  /-- Anything may stand under a name that is not known. -/
  unknown : ∀ before after m name, members = before ++ after → m.WellFormed → Says m.name name →
    name ∉ known → parse (before ++ m :: after) = .ok result
  /-- Null may stand under a name that no other member has. -/
  unset : ∀ before after m name, members = before ++ after → m.WellFormed → Says m.name name →
    name ∈ nullable → m.item.value = "null".toList → (∀ n ∈ members, ¬Says n.name name) →
      parse (before ++ m :: after) = .ok result
  /-- Nothing may stand under a known name that another member has. -/
  repeated : ∀ before after m name, members = before ++ after → m.WellFormed → Says m.name name →
    name ∈ known → (∃ n ∈ members, Says n.name name) →
      ∃ p, parse (before ++ m :: after) = .error p

/-- What holds of the members of an object holds of them within a text that is read as the object
is. -/
theorem OnlyFieldsMatter.within {τ υ : Type} {known nullable : List String}
    {parse : List Member → Except Problem τ} {parse' : List Member → Except Problem υ}
    {members : List Member} {result : τ} {result' : υ}
    (fieldsMatter : OnlyFieldsMatter known nullable parse members result)
    (wellFormed : ∀ m ∈ members, m.WellFormed)
    (accepted : ∀ ms, (∀ m ∈ ms, m.WellFormed) → parse ms = .ok result → parse' ms = .ok result')
    (refused : ∀ ms, (∀ m ∈ ms, m.WellFormed) → (∃ p, parse ms = .error p) →
      ∃ p, parse' ms = .error p) :
    OnlyFieldsMatter known nullable parse' members result' := by
  have inserted : ∀ before after m, members = before ++ after → m.WellFormed →
      ∀ n ∈ before ++ m :: after, n.WellFormed := by
    rintro before after m rfl isMember n member
    rcases List.mem_cons.1 (List.perm_middle.mem_iff.1 member) with rfl | member
    · exact isMember
    · exact wellFormed n member
  constructor
  case permuted =>
    intro members' perm
    have wellFormed' : ∀ m ∈ members', m.WellFormed := fun m member =>
      wellFormed m (perm.mem_iff.1 member)
    exact accepted members' wellFormed' (fieldsMatter.permuted members' perm)
  case unknown =>
    intro before after m name split isMember named other
    exact accepted _ (inserted before after m split isMember)
      (fieldsMatter.unknown before after m name split isMember named other)
  case unset =>
    intro before after m name split isMember named nullable null absent
    exact accepted _ (inserted before after m split isMember)
      (fieldsMatter.unset before after m name split isMember named nullable null absent)
  case repeated =>
    intro before after m name split isMember named known present
    exact refused _ (inserted before after m split isMember)
      (fieldsMatter.repeated before after m name split isMember named known present)

namespace Json

/-- The member with another value. -/
def Grammar.Member.withValue (m : Member) (value : List Char) : Member :=
  { m with item := { m.item with value := value } }

/-- A member without blanks. -/
def Grammar.Member.compact (name value : List Char) : Member :=
  ⟨[], name, [], ⟨[], value, []⟩⟩

theorem Grammar.Member.wellFormed_compact {name value : List Char} (inside : IsInside name)
    (isValue : IsValue value) : (Member.compact name value).WellFormed where
  before := List.forall_mem_nil _
  name := inside
  afterName := List.forall_mem_nil _
  item := ⟨List.forall_mem_nil _, List.forall_mem_nil _⟩
  value := isValue

theorem Grammar.isValue_objectText {gap : List Char} {members : List Member} (blank : IsBlank gap)
    (wellFormed : ∀ m ∈ members, m.WellFormed) : IsValue (objectText gap members) :=
  .object blank (fun m member => (wellFormed m member).toFramed)
    fun m member => (wellFormed m member).value

theorem Grammar.Member.WellFormed.withValue {m : Member} (isMember : m.WellFormed)
    {value : List Char} (isValue : IsValue value) : (m.withValue value).WellFormed where
  before := isMember.before
  name := isMember.name
  afterName := isMember.afterName
  item := ⟨isMember.item.before, isMember.item.after⟩
  value := isValue

/-- A member of an object as its reader sees it. -/
def Grammar.Member.reading (room : Nat) (m : Member) : Except Problem String × Cursor :=
  (textOf m.quoted, ⟨room, m.item.node⟩)

/-- An object is read as a record by name. -/
theorem record_object (wanted : Wanted) (room : Nat) (members : List Member) :
    format.record wanted ⟨room + 1, .object (members.map Member.entry) .closed⟩
      = .ok (.named ⟨members.map (Member.reading room), Ending.closed.toReading⟩) := by
  simp [format, Cursor.source, Cursor.record, descend, Member.reading, Member.entry]

/-- A text that is an object is read as its tree. -/
theorem readText_text {α : Type} (read : Cursor → Except Problem α) (t : Frame)
    {members : List Member} (wellFormed : ∀ m ∈ members, m.WellFormed) :
    readText read (t.text members)
      = read ⟨maxDepth, .object (members.map Member.entry) .closed⟩ := by
  simp only [readText, t.ofText_text wellFormed]
  cases read ⟨maxDepth, .object (members.map Member.entry) .closed⟩ <;> rfl

end Json

section Reader

variable {φ σ τ : Type} {R : RecordReader φ Cursor σ τ} {room : Nat} {members : List Member}

theorem reading_of_says {m : Member} {name : String} (framed : m.Framed)
    (named : Says m.name name) : m.reading room = (.ok name, ⟨room, m.item.node⟩) :=
  congrArg (·, _) (framed.textOf_eq_ok_iff.2 named)

/-- The fields that are read are those whose names members say. -/
theorem mem_given_reading_iff {f : φ} (wellFormed : ∀ m ∈ members, m.WellFormed) :
    f ∈ (R.fields.given (members.map (Member.reading room))).map Prod.fst ↔
      ∃ m ∈ members, ∃ name, Says m.name name ∧ R.fields.find? name = some f := by
  rw [Fields.mem_given_iff]
  constructor
  · rintro ⟨_, reading, name, text, found⟩
    obtain ⟨m, member, rfl⟩ := List.mem_map.1 reading
    exact ⟨m, member, name, (wellFormed m member).textOf_eq_ok_iff.1 text, found⟩
  · rintro ⟨m, member, name, named, found⟩
    exact ⟨m.reading room, List.mem_map_of_mem member, name,
      (wellFormed m member).textOf_eq_ok_iff.2 named, found⟩

/-- Of the members of a record only those with a field matter. -/
theorem onlyFieldsMatter_ofMembers [DecidableEq φ] {ending : Reading.Ending} {nullable : List φ}
    {result : τ} (skip : R.skip = fun c => c.node.skip)
    (finds : ∀ f ∈ nullable, R.fields.find? (R.fields.name f) = some f)
    (nulls : ∀ f ∈ nullable, ∃ s, R.read f ⟨room, .null⟩ = .ok s ∧ R.set R.start s = R.start)
    (wellFormed : ∀ m ∈ members, m.WellFormed)
    (done : R.ofMembers ending (members.map (Member.reading room)) = .ok result) :
    OnlyFieldsMatter (R.fields.order.map R.fields.name) (nullable.map R.fields.name)
      (fun ms => R.ofMembers ending (ms.map (Member.reading room))) members result := by
  constructor
  case permuted => exact fun members' perm => RecordReader.ofMembers_perm done (perm.map _)
  case unknown =>
    rintro before after m name rfl isMember named other
    rw [List.map_append] at done
    rw [List.map_append, List.map_cons, reading_of_says isMember.toFramed named]
    have skips : R.skip ⟨room, m.item.node⟩ = .ok () := by
      rw [skip]
      exact isMember.value.isScanned.skips
    exact RecordReader.ofMembers_unknown done (Fields.find?_eq_none_iff.2 other) skips
  case unset =>
    rintro before after m _ rfl isMember named nullable null absent
    obtain ⟨f, optional, rfl⟩ := List.mem_map.1 nullable
    obtain ⟨s, read, unset⟩ := nulls f optional
    have noOther : f ∉ (R.fields.given
        (before.map (Member.reading room) ++ after.map (Member.reading room))).map Prod.fst := by
      rw [← List.map_append, mem_given_reading_iff wellFormed]
      rintro ⟨n, member, name, named, found⟩
      rw [← Fields.name_of_find?_eq_some found] at named
      exact absent n member named
    have node : m.item.node = .null := by
      rw [Item.node, null]
      rfl
    rw [List.map_append] at done
    rw [List.map_append, List.map_cons, reading_of_says isMember.toFramed named, node]
    exact RecordReader.ofMembers_unset done (finds f optional) read unset noOther
  case repeated =>
    rintro before after m name rfl isMember named known ⟨n, member, same⟩
    obtain ⟨f, found⟩ : ∃ f, R.fields.find? name = some f := by
      apply Option.ne_none_iff_exists'.1
      intro none
      exact Fields.find?_eq_none_iff.1 none known
    have present : f ∈ (R.fields.given
        ((before ++ after).map (Member.reading room))).map Prod.fst :=
      (mem_given_reading_iff wellFormed).2 ⟨n, member, name, same, found⟩
    rw [List.map_append] at present
    rw [List.map_append, List.map_cons, reading_of_says isMember.toFramed named]
    exact RecordReader.ofMembers_repeated found present

end Reader

/-- The names of the fields of options. -/
def UpdateOptions.fieldNames : List String :=
  UpdateOptions.Field.all.map UpdateOptions.Field.name

/-- The names of the fields of options that may be null. -/
def UpdateOptions.nullableNames : List String :=
  (UpdateOptions.Field.all.erase .upsert).map UpdateOptions.Field.name

/-- The names of the fields of a collation.  All of them may be null. -/
def Collation.fieldNames : List String :=
  Collation.Field.all.map Collation.Field.name

namespace Format

theorem optionsReader_onlyFieldsMatter {room : Nat} {members : List Member} {o : UpdateOptions}
    (wellFormed : ∀ m ∈ members, m.WellFormed)
    (done : Json.format.optionsReader.ofMembers Ending.closed.toReading
      (members.map (Member.reading room)) = .ok o) :
    OnlyFieldsMatter UpdateOptions.fieldNames UpdateOptions.nullableNames
      (fun ms => Json.format.optionsReader.ofMembers Ending.closed.toReading
        (ms.map (Member.reading room))) members o := by
  refine onlyFieldsMatter_ofMembers rfl ?_ ?_ wellFormed done
  · intro f _
    cases f <;> decide
  · intro f nullable
    cases f with
    | upsert => exact absurd nullable (by decide)
    | _ => exact ⟨_, rfl, rfl⟩

theorem collationReader_onlyFieldsMatter {room : Nat} {members : List Member} {c : Collation}
    (wellFormed : ∀ m ∈ members, m.WellFormed)
    (done : Json.format.collationReader.ofMembers Ending.closed.toReading
      (members.map (Member.reading room)) = .ok c) :
    OnlyFieldsMatter Collation.fieldNames Collation.fieldNames
      (fun ms => Json.format.collationReader.ofMembers Ending.closed.toReading
        (ms.map (Member.reading room))) members c := by
  refine onlyFieldsMatter_ofMembers rfl ?_ ?_ wellFormed done
  · intro f _
    cases f <;> decide
  · intro f _
    cases f <;> exact ⟨_, rfl, rfl⟩

/-- A collation that is written as an object is read by name. -/
theorem updateField_objectText {gap : List Char} {members : List Member} (blank : IsBlank gap)
    (wellFormed : ∀ m ∈ members, m.WellFormed) (room : Nat) :
    Json.format.updateField .collation ⟨room + 1, (Json.Node.ofText (objectText gap members)).1⟩
      = (fun c => .collation (some c)) <$> Json.format.collationReader.ofMembers
        Ending.closed.toReading (members.map (Member.reading room)) := by
  have scanned := scans_objectText blank fun m member => (wellFormed m member).scanned
  have present : Json.format.isNull ⟨room + 1, .object (members.map Member.entry) .closed⟩
      = .ok false := rfl
  rw [scanned.ofText, ← collation_of_named (Json.record_object .collation room members),
    updateField, Source.optional, present]
  cases Json.format.collation ⟨room + 1, .object (members.map Member.entry) .closed⟩ <;> rfl

end Format

namespace UpdateOptions

/-- Options that are written as an object are read by name. -/
theorem ofJson_text_eq (t : Frame) {members : List Member}
    (wellFormed : ∀ m ∈ members, m.WellFormed) :
    ofJson (t.text members)
      = Json.format.optionsReader.ofMembers Ending.closed.toReading
        (members.map (Member.reading 126)) := by
  rw [ofJson, Json.readText_text _ t wellFormed]
  exact Format.updateOptions_of_named (Json.record_object .updateOptions 126 members)

/-- Options that are written as an object, from the member that says a name. -/
theorem ofJson_text_middle (t : Frame) {first last : List Member} {m : Member} {name : String}
    (wellFormed : ∀ n ∈ first ++ m :: last, n.WellFormed) (named : Says m.name name) :
    ofJson (t.text (first ++ m :: last))
      = Json.format.optionsReader.ofMembers Ending.closed.toReading
        (first.map (Member.reading 126)
          ++ (.ok name, ⟨126, m.item.node⟩) :: last.map (Member.reading 126)) := by
  have framed := (wellFormed m (List.mem_append_right _ List.mem_cons_self)).toFramed
  rw [ofJson_text_eq t wellFormed, List.map_append, List.map_cons, reading_of_says framed named]

section Collation

variable {t : Frame} {gap : List Char} {first last inner : List Member} {m : Member}
  {o : UpdateOptions} (blank : IsBlank gap)
  (wellFormed : ∀ n ∈ first ++ m :: last, n.WellFormed) (named : Says m.name "collation")
include blank wellFormed named

/-- Options whose collation is written as an object read that object as their collation. -/
theorem ofJson_collationText_eq (wellFormed' : ∀ n ∈ inner, n.WellFormed) :
    ofJson (t.text (first ++ m.withValue (objectText gap inner) :: last))
      = Json.format.optionsReader.ofMembers Ending.closed.toReading
        (first.map (Member.reading 126)
          ++ (.ok "collation", ⟨126, (Json.Node.ofText (objectText gap inner)).1⟩)
          :: last.map (Member.reading 126)) := by
  obtain ⟨earlier, later⟩ := List.forall_mem_append.1 wellFormed
  obtain ⟨isMember, later⟩ := List.forall_mem_cons.1 later
  have isMember' := isMember.withValue (isValue_objectText blank wellFormed')
  have others := List.forall_mem_append.2 ⟨earlier, List.forall_mem_cons.2 ⟨isMember', later⟩⟩
  exact ofJson_text_middle t others named

/-- The collation within options that are read is read itself, and so are the options with any other
object that reads as that collation. -/
theorem exists_collation_of_ofJson (wellFormed' : ∀ n ∈ inner, n.WellFormed)
    (accepted : ofJson (t.text (first ++ m.withValue (objectText gap inner) :: last)) = .ok o) :
    ∃ c, Json.format.collationReader.ofMembers Ending.closed.toReading
        (inner.map (Member.reading 125)) = .ok c ∧
      ∀ ms, (∀ n ∈ ms, n.WellFormed) → Json.format.collationReader.ofMembers
          Ending.closed.toReading (ms.map (Member.reading 125)) = .ok c →
        ofJson (t.text (first ++ m.withValue (objectText gap ms) :: last)) = .ok o := by
  rw [ofJson_collationText_eq blank wellFormed named wellFormed'] at accepted
  obtain ⟨s, read, alike⟩ := RecordReader.ofMembers_middle accepted (f := .collation) (by decide)
  have read : Json.format.updateField .collation _ = .ok s := read
  rw [Format.updateField_objectText blank wellFormed'] at read
  obtain ⟨c, inside, rfl⟩ := map_eq_ok_iff.1 read
  refine ⟨c, inside, fun ms wellFormed'' same => ?_⟩
  have read' := Format.updateField_objectText blank wellFormed'' 125
  rw [same] at read'
  rw [ofJson_collationText_eq blank wellFormed named wellFormed'']
  exact alike _ read'

/-- Of the members of the collation within options only those under the name of a field matter. -/
theorem ofJson_collation_onlyFieldsMatter (wellFormed' : ∀ n ∈ inner, n.WellFormed)
    (value : m.item.value = objectText gap inner)
    (accepted : ofJson (t.text (first ++ m :: last)) = .ok o) :
    OnlyFieldsMatter Collation.fieldNames Collation.fieldNames
      (fun ms => ofJson (t.text (first ++ m.withValue (objectText gap ms) :: last))) inner o := by
  have same : m = m.withValue (objectText gap inner) := by
    rw [← value]
    rfl
  rw [same] at accepted
  obtain ⟨c, inside, alike⟩ :=
    exists_collation_of_ofJson blank wellFormed named wellFormed' accepted
  refine (Format.collationReader_onlyFieldsMatter wellFormed' inside).within wellFormed' alike ?_
  intro ms wellFormed'' ⟨p, refused⟩
  cases read : ofJson (t.text (first ++ m.withValue (objectText gap ms) :: last)) with
  | error p' => exact ⟨p', rfl⟩
  | ok o' =>
      obtain ⟨c', inside', -⟩ :=
        exists_collation_of_ofJson blank wellFormed named wellFormed'' read
      rw [refused] at inside'
      cases inside'

end Collation

/-- Of the members of an options object only those under the name of a field matter, and each at
most once: whatever the order of members, whatever JSON stands under other names and wherever a null
stands for a field that is not there, the same options are read, and a second member for a field is
refused whatever its value.  The same holds of the members of the collation within the options. -/
theorem ofJson_onlyFieldsMatter {t : Frame} {members : List Member} {o : UpdateOptions}
    (wellFormed : ∀ m ∈ members, m.WellFormed) (accepted : ofJson (t.text members) = .ok o) :
    OnlyFieldsMatter fieldNames nullableNames (fun ms => ofJson (t.text ms)) members o ∧
    ∀ first m last gap inner, members = first ++ m :: last → Says m.name "collation" →
      IsBlank gap → (∀ n ∈ inner, n.WellFormed) → m.item.value = objectText gap inner →
        OnlyFieldsMatter Collation.fieldNames Collation.fieldNames
          (fun ms => ofJson (t.text (first ++ m.withValue (objectText gap ms) :: last)))
          inner o := by
  constructor
  · have read := ofJson_text_eq t wellFormed
    rw [accepted] at read
    refine (Format.optionsReader_onlyFieldsMatter wellFormed read.symm).within wellFormed ?_ ?_
    · intro ms wellFormed' done
      rw [ofJson_text_eq t wellFormed', done]
    · rintro ms wellFormed' ⟨p, refused⟩
      exact ⟨p, by rw [ofJson_text_eq t wellFormed', refused]⟩
  · rintro first m last gap inner rfl named blank wellFormed' value
    exact ofJson_collation_onlyFieldsMatter blank wellFormed named wellFormed' value accepted

/-- No blanks. -/
def noBlanks : Frame :=
  ⟨[], [], [], List.forall_mem_nil _, List.forall_mem_nil _, List.forall_mem_nil _⟩

/-- The member `"upsert":true`. -/
def upsertMember : Member := .compact "upsert".toList "true".toList

/-- The member `"\u0075psert":null`, which is another one of the same field. -/
def escapedMember : Member := .compact "\\u0075psert".toList "null".toList

/-- The member `"x":[-1e999]`, whose number is beyond all doubles. -/
def listMember : Member := .compact "x".toList (arrayText [] [⟨[], "-1e999".toList, []⟩])

/-- The member `"locale":"fr"` of a collation. -/
def localeMember : Member := .compact "locale".toList ('"' :: ("fr".toList ++ ['"']))

/-- The member `"strength":null` of a collation. -/
def strengthMember : Member := .compact "strength".toList "null".toList

/-- The member `"collation":{"locale":"fr"}`. -/
def collationMember : Member := .compact "collation".toList (objectText [] [localeMember])

/-- What `{"upsert":true,"collation":{"locale":"fr"}}` is read as. -/
def french : UpdateOptions :=
  { upsert := true, collation := some { locale := some "fr" } }

theorem says_escaped : Says "\\u0075psert".toList "upsert" := by
  obtain ⟨pieces, written, spells⟩ : Says "psert".toList "psert" := says_ofList (by decide)
  exact ⟨.unit 0x75 :: pieces, .unit (by decide) written, .unit (by decide) (by decide) spells⟩

theorem wellFormed_listMember : listMember.WellFormed := by
  have number : IsNumber ('-' :: (['1'] ++ ([] ++ "e999".toList))) :=
    .negative (by decide) .absent (.unsigned (.inl rfl) (by decide))
  exact Member.wellFormed_compact (says_ofList (by decide)).isInside
    (.array (by decide) (List.forall_mem_singleton.2 ⟨by decide, by decide⟩)
      (List.forall_mem_singleton.2 (.number number)))

theorem wellFormed_localeMember : localeMember.WellFormed :=
  Member.wellFormed_compact (says_ofList (by decide)).isInside
    (.string (says_ofList (by decide)).isInside)

theorem wellFormed_french : ∀ m ∈ [upsertMember, collationMember], m.WellFormed := by
  have upsert : upsertMember.WellFormed :=
    Member.wellFormed_compact (says_ofList (by decide)).isInside (.word (by decide))
  have collation : collationMember.WellFormed :=
    Member.wellFormed_compact (says_ofList (by decide)).isInside
      (isValue_objectText (by decide) (List.forall_mem_singleton.2 wellFormed_localeMember))
  exact List.forall_mem_cons.2 ⟨upsert, List.forall_mem_singleton.2 collation⟩

/-- A list under an unknown name and a null within the collation change nothing; a second `upsert`
is refused. -/
theorem ofJson_onlyFieldsMatter_french :
    (∀ m ∈ [upsertMember, collationMember], m.WellFormed) ∧
    ofJson (noBlanks.text [upsertMember, collationMember]) = .ok french ∧
    ofJson (noBlanks.text ([upsertMember] ++ listMember :: [collationMember])) = .ok french ∧
    (∃ p, ofJson (noBlanks.text ([upsertMember] ++ escapedMember :: [collationMember]))
      = .error p) ∧
    ofJson (noBlanks.text ([upsertMember] ++ collationMember.withValue
      (objectText [] ([] ++ strengthMember :: [localeMember])) :: [])) = .ok french := by
  have accepted : ofJson (noBlanks.text [upsertMember, collationMember]) = .ok french := rfl
  obtain ⟨outer, inner⟩ := ofJson_onlyFieldsMatter wellFormed_french accepted
  refine ⟨wellFormed_french, accepted, ?unknown, ?repeated, ?unset⟩
  case unknown =>
    exact outer.unknown _ _ _ "x" rfl wellFormed_listMember (says_ofList (by decide)) (by decide)
  case repeated =>
    exact outer.repeated _ _ _ "upsert" rfl
      (Member.wellFormed_compact says_escaped.isInside (.word (by decide))) says_escaped (by decide)
      ⟨upsertMember, by simp, says_ofList (by decide)⟩
  case unset =>
    have locale : ∀ n ∈ [localeMember], n.WellFormed :=
      List.forall_mem_singleton.2 wellFormed_localeMember
    have named : Says strengthMember.name "strength" := says_ofList (by decide)
    have absent : ∀ n ∈ [localeMember], ¬Says n.name "strength" := by
      refine List.forall_mem_singleton.2 fun other => ?_
      have text := wellFormed_localeMember.textOf_eq_ok_iff.2 other
      exact absurd text (by decide)
    exact (inner [upsertMember] collationMember [] [] [localeMember] rfl
      (says_ofList (by decide)) (by decide) locale rfl).unset _ _ _ "strength" rfl
      (Member.wellFormed_compact named.isInside (.word (by decide))) named (by decide) rfl absent

end UpdateOptions

end DocumentCommand
