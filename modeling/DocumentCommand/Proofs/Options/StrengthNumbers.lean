import DocumentCommand.Proofs.Command.Encoding
import DocumentCommand.Proofs.Options.StoredReading

/-!
# Strengths by number

A strength is read from an integer, and the integer may come from a JSON text of any length, from a
value of 32 or of 64 bits, or as a number of 32 bits by itself.  All of them go the same way
(`Strength.ofInteger`), so they agree on every integer: the numbers from one to five are the levels
and no others, and an integer of more than 32 bits is refused as such and never cut.  What the other
fields of the collation hold does not matter.
-/

namespace DocumentCommand

open Reading
open Json (Cursor Datum)

/-! ### Integers -/

namespace Integer

theorem int32?_eq_none_iff {n : Int} :
    int32? n = none ↔ ¬(-2147483648 ≤ n ∧ n ≤ 2147483647) := by
  have least : Int32.minValue.toInt = -2147483648 := by decide
  have greatest : Int32.maxValue.toInt = 2147483647 := by decide
  simp [int32?, least, greatest]

end Integer

/-- The numeral of an integer that does not fit 64 bits means a double, if anything. -/
theorem Json.Numeral.value?_ofInt_wide {n : Int}
    (wide : ¬(-9223372036854775808 ≤ n ∧ n ≤ 18446744073709551615)) :
    (ofInt n).value? = (ofInt n).real?.map .real := by
  have least : Int64.minValue.toInt = -9223372036854775808 := by decide
  have size : UInt64.size = 18446744073709551616 := by decide
  have outside : ¬(if decide (n < 0) = true then
      0 < n.natAbs ∧ Int64.minValue.toInt ≤ -(n.natAbs : Int) else n.natAbs < UInt64.size) := by
    split
    · next negative =>
        have := of_decide_eq_true negative
        omega
    · next positive =>
        have : ¬ n < 0 := by simpa using positive
        omega
  rw [value?]
  simp only [ofInt, Text.Digits.value_ofNat, outside, and_false, if_false]

/-! ### Levels -/

namespace Strength

/-- The levels have the numbers from one to five. -/
theorem exists_level_iff {n : Int} : (∃ s : Strength, s.level.toInt = n) ↔ 1 ≤ n ∧ n ≤ 5 := by
  constructor
  · rintro ⟨s, rfl⟩
    cases s <;> decide
  · rintro ⟨least, greatest⟩
    have cases : n = 1 ∨ n = 2 ∨ n = 3 ∨ n = 4 ∨ n = 5 := by omega
    rcases cases with rfl | rfl | rfl | rfl | rfl
    · exact ⟨.primary, rfl⟩
    · exact ⟨.secondary, rfl⟩
    · exact ⟨.tertiary, rfl⟩
    · exact ⟨.quaternary, rfl⟩
    · exact ⟨.identical, rfl⟩

/-- A number is that of a level when it is read as that level. -/
theorem ofNumber_eq_ok_iff {word : Int32} {s : Strength} :
    ofNumber word = .ok s ↔ s.level.toInt = word.toInt := by
  constructor
  · intro read
    cases found : ofLevel? word with
    | none =>
        rw [ofNumber, found] at read
        cases read
    | some t =>
        rw [ofNumber, found] at read
        cases read
        have level : s.level = word := by simpa [ofLevel?] using List.find?_some found
        rw [level]
  · intro level
    rw [← Int32.toInt_inj.1 level, ofNumber_level]

theorem ofNumber_of_no_level {word : Int32}
    (none : ¬∃ s : Strength, s.level.toInt = word.toInt) :
    ofNumber word = .error (.unknownStrength word.toInt) := by
  have missing : ofLevel? word = .none := by
    refine List.find?_eq_none.2 fun s _ found => none ⟨s, ?_⟩
    rw [of_decide_eq_true found]
  rw [ofNumber, missing]

/-- The strength of an integer of any size. -/
def ofInteger (n : Int) : Except Problem Strength :=
  match Integer.int32? n with
  | some word => (ofNumber word).mapError .data
  | none => .error (.data (.range n .int32))

theorem ofInteger_toInt (word : Int32) :
    ofInteger word.toInt = (ofNumber word).mapError .data := by
  rw [ofInteger, Integer.int32?_toInt]

end Strength

/-! ### Verdicts -/

/-- A reader fails for a reason that every format words in this way. -/
def Reading.FailsWith {α : Type} (result : Except Problem α) (text : String) : Prop :=
  ∃ m, result = .error (.data m) ∧ ∀ w, m.message? w = some text

/-- What an integer is as a strength, given by a reader whose result holds the strength: the level
of that number, or the reason why there is none. -/
structure Strength.Verdict {α : Type} (n : Int) (holding : Strength → α)
    (result : Except Problem α) : Prop where
  accepted : ∀ a, result = .ok a ↔ ∃ s : Strength, s.level.toInt = n ∧ a = holding s
  unknown : -2147483648 ≤ n → n ≤ 2147483647 → ¬(1 ≤ n ∧ n ≤ 5) →
    FailsWith result ("unknown collation strength " ++ String.ofList (Text.Digits.ofInt n))
  range : n < -2147483648 ∨ 2147483647 < n →
    -9223372036854775808 ≤ n → n ≤ 18446744073709551615 →
      FailsWith result
        ("invalid value: integer `" ++ String.ofList (Text.Digits.ofInt n) ++ "`, expected i32")
  beyond : n < -9223372036854775808 ∨ 18446744073709551615 < n → ∃ p, result = .error p

theorem Reading.FailsWith.map {α β : Type} {result : Except Problem α} {text : String}
    (fails : FailsWith result text) (f : α → β) : FailsWith (f <$> result) text := by
  obtain ⟨m, rfl, words⟩ := fails
  exact ⟨m, rfl, words⟩

namespace Strength

variable {α β : Type} {n : Int} {holding : Strength → α} {result : Except Problem α}

/-- What holds the result of a reader holds its verdict. -/
theorem Verdict.map (verdict : Verdict n holding result) (f : α → β) :
    Verdict n (f ∘ holding) (f <$> result) := by
  constructor
  case accepted =>
    intro b
    rw [map_eq_ok_iff]
    constructor
    · rintro ⟨a, read, rfl⟩
      obtain ⟨s, level, rfl⟩ := (verdict.accepted a).1 read
      exact ⟨s, level, rfl⟩
    · rintro ⟨s, level, rfl⟩
      exact ⟨holding s, (verdict.accepted _).2 ⟨s, level, rfl⟩, rfl⟩
  case unknown => exact fun least greatest none => (verdict.unknown least greatest none).map f
  case range => exact fun outside least greatest => (verdict.range outside least greatest).map f
  case beyond =>
    intro outside
    obtain ⟨p, rfl⟩ := verdict.beyond outside
    exact ⟨p, rfl⟩

/-- A reader that fails is right to where the integer is no level. -/
theorem error_eq_ok_iff {p : Problem} (none : ¬(1 ≤ n ∧ n ≤ 5)) (a : α) :
    (.error p : Except Problem α) = .ok a ↔ ∃ s : Strength, s.level.toInt = n ∧ a = holding s := by
  constructor
  · rintro ⟨⟩
  · rintro ⟨s, level, -⟩
    exact absurd (exists_level_iff.1 ⟨s, level⟩) none

/-- An integer outside 64 bits is no level, for whatever reason it is refused. -/
theorem verdict_of_error {p : Problem}
    (wide : ¬(-9223372036854775808 ≤ n ∧ n ≤ 18446744073709551615)) :
    Verdict n holding (.error p) := by
  constructor
  case accepted => exact error_eq_ok_iff (by omega)
  case unknown => omega
  case range => omega
  case beyond => exact fun _ => ⟨p, rfl⟩

theorem failsWith_unknown (n : Int) :
    FailsWith (.error (.data (.unknownStrength n)) : Except Problem α)
      ("unknown collation strength " ++ String.ofList (Text.Digits.ofInt n)) :=
  ⟨_, rfl, fun _ => rfl⟩

theorem failsWith_range (n : Int) :
    FailsWith (.error (.data (.range n .int32)) : Except Problem α)
      ("invalid value: integer `" ++ String.ofList (Text.Digits.ofInt n) ++ "`, expected i32") := by
  refine ⟨_, rfl, fun w => congrArg some ?_⟩
  apply String.toList_inj.1
  simp [integerWords, ticked]

theorem verdict_ofNumber (word : Int32) :
    Verdict word.toInt id ((ofNumber word).mapError Problem.data) := by
  have least := word.le_toInt
  have greatest := word.toInt_lt
  constructor
  case accepted =>
    intro s
    rw [mapError_eq_ok_iff, ofNumber_eq_ok_iff]
    constructor
    · exact fun level => ⟨s, level, rfl⟩
    · rintro ⟨t, level, rfl⟩
      exact level
  case unknown =>
    intro _ _ none
    rw [ofNumber_of_no_level (mt exists_level_iff.1 none)]
    exact failsWith_unknown _
  case range => omega
  case beyond => omega

/-- The way of an integer of 64 bits. -/
theorem verdict_ofInteger (least : -9223372036854775808 ≤ n) (greatest : n ≤ 18446744073709551615) :
    Verdict n id (ofInteger n) := by
  cases fits : Integer.int32? n with
  | none =>
      have outside := Integer.int32?_eq_none_iff.1 fits
      have refused : ofInteger n = .error (.data (.range n .int32)) := by rw [ofInteger, fits]
      rw [refused]
      constructor
      case accepted => exact error_eq_ok_iff (by omega)
      case unknown => omega
      case range => exact fun _ _ _ => failsWith_range n
      case beyond => omega
  | some word =>
      obtain rfl := Integer.int32?_eq_some_iff.1 fits
      rw [ofInteger_toInt]
      exact verdict_ofNumber word

end Strength

/-! ### Readers -/

/-- A value of 32 or of 64 bits that is an integer. -/
inductive Value.IsInteger (n : Int) : Value → Prop where
  | int32 (word : Int32) (same : word.toInt = n) : IsInteger n (.int32 word)
  | int64 (word : Int64) (same : word.toInt = n) : IsInteger n (.int64 word)

namespace Format

/-- A JSON number that fits 64 bits is read by its integer. -/
theorem strength_integer (room : Nat) {n : Int} (least : -9223372036854775808 ≤ n)
    (greatest : n ≤ 18446744073709551615) :
    Json.format.strength ⟨room, (Datum.integer n).node⟩ = Strength.ofInteger n := by
  have bound : Int64.minValue.toInt = -9223372036854775808 := by decide
  have size : UInt64.size = 18446744073709551616 := by decide
  have number : Json.numberOf (.ofInt n) = .ok (.integer n) :=
    Json.numberOf_ofInt (by omega) (by omega)
  have asInt32 : Json.format.int32 = Cursor.int32 := rfl
  rw [strength, asInt32, Cursor.int32, Datum.node]
  simp only [number, ok_bind, Strength.ofInteger]
  cases Integer.int32? n <;> rfl

/-- A JSON number that does not fit 64 bits is refused. -/
theorem strength_wide (room : Nat) {n : Int}
    (wide : ¬(-9223372036854775808 ≤ n ∧ n ≤ 18446744073709551615)) :
    ∃ p, Json.format.strength ⟨room, (Datum.integer n).node⟩ = .error p := by
  have asInt32 : Json.format.int32 = Cursor.int32 := rfl
  rw [strength, asInt32, Cursor.int32, Datum.node]
  simp only [Json.numberOf, Json.Numeral.value?_ofInt_wide wide]
  cases (Json.Numeral.ofInt n).real? with
  | none => exact ⟨_, rfl⟩
  | some x => exact ⟨_, rfl⟩

theorem verdict_integer (room : Nat) (n : Int) :
    Strength.Verdict n id (Json.format.strength ⟨room, (Datum.integer n).node⟩) := by
  by_cases wide : -9223372036854775808 ≤ n ∧ n ≤ 18446744073709551615
  · rw [strength_integer room wide.1 wide.2]
    exact Strength.verdict_ofInteger wide.1 wide.2
  · obtain ⟨p, refused⟩ := strength_wide room wide
    rw [refused]
    exact Strength.verdict_of_error wide

/-- Values of either width are read by their integer. -/
theorem strength_isInteger {n : Int} {v : Value} (integer : v.IsInteger n) :
    Value.format.strength v = Strength.ofInteger n := by
  have asInteger : v.asInteger? = some n := by
    obtain ⟨word, rfl⟩ | ⟨word, rfl⟩ := integer <;> rfl
  have asInt32 : Value.format.int32 = Value.readInt32 := rfl
  rw [strength, asInt32, Value.readInt32, Strength.ofInteger, asInteger]
  cases fits : Integer.int32? n <;> simp [fits]

theorem verdict_isInteger {n : Int} {v : Value} (integer : v.IsInteger n) :
    Strength.Verdict n id (Value.format.strength v) := by
  have bounds : -9223372036854775808 ≤ n ∧ n ≤ 18446744073709551615 := by
    obtain ⟨word, rfl⟩ | ⟨word, rfl⟩ := integer
    all_goals
      have least := word.le_toInt
      have greatest := word.toInt_lt
      omega
  rw [strength_isInteger integer]
  exact Strength.verdict_ofInteger bounds.1 bounds.2

end Format

/-! ### Collations with a number for their strength -/

namespace Collation

/-- The collation with a strength. -/
def withStrength (c : Collation) (s : Strength) : Collation :=
  { c with strength := some s }

/-- What stands under the name of a field, with something else in the place of the strength. -/
def written? {ν : Type} (c : Collation) (write : Value → ν) (x : ν) (f : Field) : Option ν :=
  if f = .strength then some x else (c.fieldValue? f).map write

/-- The fields of a collation with something else in the place of the strength. -/
def around {ν : Type} (c : Collation) (write : Value → ν) (x : ν) : List (String × ν) :=
  Field.all.filterMap fun f => (c.written? write x f).map (f.name, ·)

/-- The fields before the strength. -/
def Field.beforeStrength : List Field :=
  [.locale, .caseLevel, .caseFirst]

/-- The fields after the strength. -/
def Field.afterStrength : List Field :=
  [.numericOrdering, .alternate, .maxVariable, .normalization, .backwards]

theorem Field.all_eq_around : all = beforeStrength ++ .strength :: afterStrength := rfl

theorem ofSettings_around_strength (c : Collation) (s : Strength) :
    ofSettings (Field.beforeStrength.filterMap c.setting?
      ++ .strength (some s) :: Field.afterStrength.filterMap c.setting?)
        = c.withStrength s := by
  have built := ofSettings_setting? (c.withStrength s)
  rwa [Field.all_eq_around, List.filterMap_append, List.filterMap_cons] at built

end Collation

namespace Format

variable {ν : Type} (F : Format ν) {c : Collation} (write : Value → ν)

/-- The fields apart from the strength are read as they are set. -/
theorem mapM_written
    (others : ∀ f w, c.fieldValue? f = some w →
      ∃ s, c.setting? f = some s ∧ F.collationField f (write w) = .ok s)
    {x : ν} {fields : List Collation.Field} (apart : .strength ∉ fields) :
    ((fields.filterMap fun f => (c.written? write x f).map fun w => (f, w)).mapM fun e =>
      F.collationField e.1 e.2) = .ok (fields.filterMap c.setting?) := by
  have written : ∀ f ∈ fields, c.written? write x f = (c.fieldValue? f).map write := by
    intro f member
    have other : f ≠ .strength := by
      rintro rfl
      exact apart member
    exact if_neg other
  apply mapM_filterMap_eq_ok
  · intro f member unset
    rw [written f member, Option.map_eq_none_iff] at unset
    exact Collation.setting?_eq_none unset
  · intro f member w set
    rw [written f member] at set
    obtain ⟨value, field, rfl⟩ := Option.map_eq_some_iff.1 set
    exact others f value field

/-- A collation is read with the strength that is read, when its other fields are read. -/
theorem collation_around
    (others : ∀ f w, c.fieldValue? f = some w →
      ∃ s, c.setting? f = some s ∧ F.collationField f (write w) = .ok s)
    {v x : ν} {ending : Ending} (ends : ending.asked = .ok ())
    (record : F.record .collation v = .ok (.named
      ⟨Collation.Field.all.filterMap fun f => (c.written? write x f).map fun w => (.ok f.name, w),
        ending⟩))
    (solid : F.isNull x = .ok false) :
    F.collation v = c.withStrength <$> F.strength x := by
  have own : F.collationField .strength x
      = (fun s => Collation.Setting.strength (some s)) <$> F.strength x := by
    rw [collationField, Source.optional, solid, ok_bind]
    cases F.strength x <;> rfl
  have middle := mapM_middle (a := (Collation.Field.strength, x))
    (F.mapM_written write others (x := x) (by decide : _ ∉ Collation.Field.beforeStrength))
    (F.mapM_written write others (x := x) (by decide : _ ∉ Collation.Field.afterStrength))
  rw [collation, record, ok_bind, Fields.readRecord,
    Fields.readNamed_eq_mapM _ ends (fun f _ => by cases f <;> decide) Collation.Field.all []
      (by decide) (fun _ _ => List.not_mem_nil),
    Collation.Field.all_eq_around, List.filterMap_append, List.filterMap_cons]
  refine (congrArg (· >>= _) middle).trans ?_
  dsimp only
  rw [own]
  cases F.strength x with
  | error p => rfl
  | ok s => exact congrArg Except.ok (c.ofSettings_around_strength s)

/-- Options that hold a collation and nothing else are read with the collation that is read. -/
theorem updateOptions_collation {v x : ν} {ending : Ending} (ends : ending.asked = .ok ())
    (record : F.record .updateOptions v = .ok (.named ⟨[(.ok "collation", x)], ending⟩))
    (solid : F.isNull x = .ok false) :
    F.updateOptions v = (fun c => { collation := some c }) <$> F.collation x := by
  have known : (⟨UpdateOptions.Field.all, UpdateOptions.Field.name⟩ :
      Fields UpdateOptions.Field).find? "collation" = some .collation := by decide
  have own : F.updateField .collation x
      = (fun c => UpdateOptions.Setting.collation (some c)) <$> F.collation x := by
    rw [updateField, Source.optional, solid, ok_bind]
    cases F.collation x <;> rfl
  rw [updateOptions, record, ok_bind, Fields.readRecord]
  simp only [Fields.readNamed, ok_bind, known, List.not_mem_nil, if_false, own, ends]
  cases F.collation x <;> rfl

end Format

namespace Collation

/-- The JSON data of a collation with a number for its strength. -/
def datumWith (c : Collation) (n : Int) : Datum :=
  .object (c.around Value.toDatum (.integer n))

/-- The document of a collation with a value for its strength. -/
def documentWith (c : Collation) (v : Value) : Document :=
  c.around id v

theorem written?_map {ν μ : Type} (c : Collation) (write : Value → ν) (x : ν) (g : ν → μ)
    (f : Field) : (c.written? write x f).map g = c.written? (g ∘ write) (g x) f := by
  rw [written?, written?]
  split
  · rfl
  · rw [Option.map_map]

theorem whole_datumWith (c : Collation) (n : Int) : (c.datumWith n).Whole := by
  apply Datum.membersWhole_of_forall
  intro m member
  obtain ⟨f, -, named⟩ := List.mem_filterMap.1 member
  obtain ⟨d, written, rfl⟩ := Option.map_eq_some_iff.1 named
  rw [written?] at written
  split at written
  · obtain rfl := Option.some.inj written
    trivial
  · obtain ⟨v, value, rfl⟩ := Option.map_eq_some_iff.1 written
    exact whole_fieldValue? value

theorem map_around {ν μ κ : Type} (c : Collation) (write : Value → ν) (x : ν) (g : ν → μ)
    (key : String → κ) :
    (c.around write x).map (fun e => (key e.1, g e.2))
      = Field.all.filterMap fun f =>
          (c.written? (g ∘ write) (g x) f).map fun y => (key f.name, y) := by
  rw [around, List.map_filterMap]
  simp only [Option.map_map, ← written?_map]
  rfl

/-- The collation is read with the strength that its number is read as. -/
theorem readNode_datumWith (c : Collation) (n : Int) (room : Nat) :
    Json.format.collation ⟨room + 1, (c.datumWith n).node⟩
      = c.withStrength <$> Json.format.strength ⟨room, (Datum.integer n).node⟩ := by
  apply Json.format.collation_around (fun v => ⟨room, v.toDatum.node⟩)
  case others => exact fun f v value => collationField_node room value
  case ends => exact (rfl : Json.Ending.closed.toReading.asked = .ok ())
  case record =>
    have members := c.map_around Value.toDatum (.integer n)
      (fun d => (⟨room, d.node⟩ : Cursor)) fun name => (.ok name : Except Problem String)
    exact (Cursor.record_object .collation room _).trans
      (congrArg (fun ms => Except.ok (Record.named ⟨ms, _⟩)) members)
  case solid => rfl

theorem ofDocument_documentWith (c : Collation) {v : Value} (solid : v.isNull = false) :
    ofDocument (c.documentWith v) = c.withStrength <$> Value.format.strength v := by
  apply Value.format.collation_around id
  case others => exact fun f v value => collationField_value value
  case ends => exact (rfl : Ending.open.asked = .ok ())
  case record =>
    have members := c.map_around id v id fun name => (.ok name : Except Problem String)
    exact congrArg (fun ms => Except.ok (Record.named ⟨ms, _⟩)) members
  case solid => exact congrArg Except.ok solid

/-- A level is written as its number. -/
theorem toRecord_withStrength (c : Collation) (s : Strength) :
    (c.withStrength s).toRecord = c.documentWith (.int32 s.level) := by
  have fields (f : Field) :
      (c.withStrength s).fieldValue? f = c.written? id (.int32 s.level) f := by
    cases f <;> simp [written?, fieldValue?, withStrength]
  simp only [toRecord, documentWith, around, fields]

theorem toDatum_withStrength (c : Collation) (s : Strength) :
    (c.withStrength s).toRecord.toDatum = c.datumWith s.level.toInt := by
  rw [toRecord_withStrength, Document.toDatum, Value.entriesDatum_eq_map]
  exact congrArg Datum.object (c.map_around id (.int32 s.level) Value.toDatum id)

end Collation

namespace UpdateOptions

/-- Options with a collation and nothing else. -/
def withCollation (c : Collation) : UpdateOptions :=
  { collation := some c }

theorem ofJson_collation {d : Datum} (whole : d.Whole) (solid : d ≠ .null) :
    ofJson (Datum.object [("collation", d)]).text
      = withCollation <$> Json.format.collation ⟨126, d.node⟩ := by
  have room : Json.maxDepth = 126 + 1 := rfl
  have member : (Datum.object [("collation", d)]).Whole := by
    apply Datum.membersWhole_of_forall
    simpa using whole
  rw [ofJson, Json.readText_compact _ member, room]
  apply Json.format.updateOptions_collation
  case ends => exact (rfl : Json.Ending.closed.toReading.asked = .ok ())
  case record => exact Cursor.record_object .updateOptions 126 [("collation", d)]
  case solid => exact Format.isNull_node whole solid 126

theorem ofDocument_collation (d : Document) :
    ofDocument [("collation", .document d)] = withCollation <$> Collation.ofDocument d := by
  apply Value.format.updateOptions_collation
  case ends => exact (rfl : Ending.open.asked = .ok ())
  case record => rfl
  case solid => rfl

end UpdateOptions

/-! ### All readers -/

namespace Strength

theorem verdict_collationJson (c : Collation) (n : Int) :
    Verdict n c.withStrength (Collation.ofJson (c.datumWith n).text) := by
  have room : Json.maxDepth = 126 + 1 := rfl
  rw [Collation.ofJson, Json.readText_compact _ (c.whole_datumWith n), room, c.readNode_datumWith]
  exact (Format.verdict_integer 126 n).map c.withStrength

theorem verdict_optionsJson (c : Collation) (n : Int) :
    Verdict n (UpdateOptions.withCollation ∘ c.withStrength)
      (UpdateOptions.ofJson (Datum.object [("collation", c.datumWith n)]).text) := by
  rw [UpdateOptions.ofJson_collation (c.whole_datumWith n) Datum.noConfusion, c.readNode_datumWith]
  exact ((Format.verdict_integer 125 n).map c.withStrength).map UpdateOptions.withCollation

theorem verdict_documents {n : Int} {v : Value} (c : Collation) (integer : v.IsInteger n) :
    Verdict n c.withStrength (Collation.ofDocument (c.documentWith v)) ∧
      Verdict n (UpdateOptions.withCollation ∘ c.withStrength)
        (UpdateOptions.ofDocument [("collation", .document (c.documentWith v))]) := by
  have solid : v.isNull = false := by cases integer <;> rfl
  have verdict := Format.verdict_isInteger integer
  rw [UpdateOptions.ofDocument_collation, c.ofDocument_documentWith solid]
  exact ⟨verdict.map c.withStrength, (verdict.map c.withStrength).map UpdateOptions.withCollation⟩

theorem level_injective {s t : Strength} (same : s.level.toInt = t.level.toInt) : s = t := by
  have read := ofNumber_eq_ok_iff.2 same
  rw [ofNumber_level] at read
  exact (Except.ok.inj read).symm

/-- All readers of a strength agree on every integer, whatever the other fields of the collation
are: the same integers are levels for a JSON text, for values of 32 and of 64 bits and for the
conversion of a number, they are the same levels, and they are written as these integers again.  All
others are refused, each for the same reason. -/
theorem readers_agree (n : Int) (c : Collation) :
    ((∃ s : Strength, s.level.toInt = n) ↔ 1 ≤ n ∧ n ≤ 5) ∧
    (∀ s t : Strength, s.level.toInt = n → t.level.toInt = n → s = t) ∧
    Verdict n c.withStrength (Collation.ofJson (c.datumWith n).text) ∧
    Verdict n (UpdateOptions.withCollation ∘ c.withStrength)
      (UpdateOptions.ofJson (Datum.object [("collation", c.datumWith n)]).text) ∧
    (∀ v : Value, v.IsInteger n →
      Verdict n c.withStrength (Collation.ofDocument (c.documentWith v)) ∧
        Verdict n (UpdateOptions.withCollation ∘ c.withStrength)
          (UpdateOptions.ofDocument [("collation", .document (c.documentWith v))])) ∧
    (∀ word : Int32, word.toInt = n → Verdict n id ((ofNumber word).mapError Problem.data)) ∧
    ∀ s : Strength, s.level.toInt = n →
      (c.withStrength s).toRecord.toDatum.text = (c.datumWith n).text ∧
        (c.withStrength s).toDocument = c.documentWith (.int32 s.level) ∧
        Value.storedEntries (c.withStrength s).toRecord = c.documentWith (.int32 s.level) := by
  refine ⟨exists_level_iff, fun s t first second => level_injective (first.trans second.symm),
    verdict_collationJson c n, verdict_optionsJson c n, fun _ => verdict_documents c, ?number,
    ?written⟩
  case number =>
    rintro word rfl
    exact verdict_ofNumber word
  case written =>
    rintro s rfl
    rw [c.toDatum_withStrength, Collation.toDocument_eq_toRecord, Collation.storedEntries_toRecord,
      c.toRecord_withStrength]
    exact ⟨rfl, rfl, rfl⟩

/-- Three is a level, and an integer whose lowest 32 bits make three is none. -/
theorem readers_agree_three :
    (3 : Int32).toInt = 3 ∧ (ofNumber 3).mapError Problem.data = .ok tertiary ∧
      tertiary.level.toInt = 3 ∧
      (Collation.withStrength {} tertiary).toRecord.toDatum.text
        = "\x7b\"strength\":3\x7d".toList ∧
      Value.IsInteger 4294967299 (.int64 4294967299) ∧
      FailsWith (Collation.ofDocument [("strength", .int64 4294967299)])
        "invalid value: integer `4294967299`, expected i32" := by
  obtain ⟨-, -, -, -, -, number, written⟩ := readers_agree 3 {}
  obtain ⟨-, -, -, -, values, -, -⟩ := readers_agree 4294967299 {}
  have wide : Value.IsInteger 4294967299 (.int64 4294967299) := .int64 _ (by decide)
  refine ⟨by decide, ((number 3 (by decide)).accepted tertiary).2 ⟨tertiary, by decide, rfl⟩,
    by decide, (written tertiary (by decide)).1, wide, ?_⟩
  exact (values _ wide).1.range (by decide) (by decide) (by decide)

end Strength

end DocumentCommand
