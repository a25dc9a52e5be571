import DocumentCommand.Proofs.Value.Lookup
import DocumentCommand.Search.Stage

/-!
# Search stages read back

A search stage determines the operator and the settings that it was made from, up to the analyzers
of the paths in scores, which are not sent (`Operator.withoutBoostAnalyzers`).  The readers of this
module invert the encoding: `Operator.ofEntry?` reads the field of an operator and `readStage?` a
whole stage.

Three encodings could be taken for one another.  A bare value, an array and null tell one value,
several and none apart because no comparand is itself null or an array; a path is a string or a
document; and the body of a boost has a field of its own for each of its two forms.
-/

namespace DocumentCommand.Search

open Document (field)

/-! ### Analyzers that are not sent -/

/-- The modifier as it is sent: without the analyzer of its path. -/
def Score.withoutAnalyzer : Score → Score
  | .boostPath path undefined => .boostPath ⟨path.path, none⟩ undefined
  | s => s

mutual

/-- The operator without the analyzers of the paths in scores, its own and those within. -/
def Operator.withoutBoostAnalyzers : Operator → Operator
  | .isIn o => .isIn { o with score := o.score.map Score.withoutAnalyzer }
  | .isPresent o => .isPresent { o with score := o.score.map Score.withoutAnalyzer }
  | .compound ⟨must, mustNot, should, filter, minimum, score⟩ =>
    .compound ⟨operatorsWithoutBoostAnalyzers must, operatorsWithoutBoostAnalyzers mustNot,
      operatorsWithoutBoostAnalyzers should, operatorsWithoutBoostAnalyzers filter, minimum,
      score.map Score.withoutAnalyzer⟩

/-- The operators of a clause without the analyzers of the paths in scores. -/
def operatorsWithoutBoostAnalyzers : List Operator → List Operator
  | [] => []
  | o :: rest => o.withoutBoostAnalyzers :: operatorsWithoutBoostAnalyzers rest

end

/-! ### Readers -/

/-- The path that a value writes. -/
def Path.ofValue? : Value → Option Path
  | .string path => some ⟨path, none⟩
  | .document [("value", .string path), ("multi", .string analyzer)] => some ⟨path, some analyzer⟩
  | _ => none

/-- The modifier that a document writes. -/
def Score.ofDocument? : Document → Option Score
  | [("boost", .document [("value", .double value)])] => some (.boost value)
  | [("boost", .document [("path", .string path)])] => some (.boostPath ⟨path, none⟩ none)
  | [("boost", .document [("path", .string path), ("undefined", .double value)])] =>
    some (.boostPath ⟨path, none⟩ (some value))
  | [("constant", .document [("value", .double value)])] => some (.constant value)
  | [("function", .document expression)] => some (.function expression)
  | _ => none

/-- The modifier that the body of an operator has, if it has one. -/
def scoreOf? (body : Document) : Option (Option Score) :=
  match body.get? "score" with
  | none => some none
  | some (.document d) => (Score.ofDocument? d).map some
  | some _ => none

/-- Values of one kind, which is that of the first. -/
def Comparands.ofValues? : List Value → Option Comparands
  | [] => none
  | first :: rest =>
    let values := first :: rest
    match first with
    | .bool _ => some (.booleans (values.filterMap fun | .bool b => some b | _ => none))
    | .objectId _ => some (.objectIds (values.filterMap fun | .objectId id => some id | _ => none))
    | .int32 _ => some (.int32s (values.filterMap fun | .int32 n => some n | _ => none))
    | .int64 _ => some (.int64s (values.filterMap fun | .int64 n => some n | _ => none))
    | .double _ => some (.doubles (values.filterMap fun | .double x => some x | _ => none))
    | .instant _ => some (.instants (values.filterMap fun | .instant t => some t | _ => none))
    | .binary _ _ =>
      some (.uuids (values.filterMap fun | .binary _ bytes => Uuid.ofBytes? bytes | _ => none))
    | .string _ => some (.strings (values.filterMap fun | .string s => some s | _ => none))
    | _ => none

/-- What a value in the place of comparands stands for. -/
def comparandsOf? : Value → Option (Option Comparands)
  | .null => some none
  | .array values => (Comparands.ofValues? values).map some
  | single => (Comparands.ofValues? [single]).map some

/-- The `in` operator that compares with these values, none for no values. -/
def InOperator.ofComparands? (path : Path) (score : Option Score) :
    Option Comparands → Option InOperator
  | none => some ⟨path, none, score, by rintro _ ⟨⟩⟩
  | some c =>
    if filled : c.values ≠ [] then some ⟨path, some c, score, by rintro _ ⟨⟩; exact filled⟩
    else none

/-- The `in` operator of a body. -/
def InOperator.ofBody? (body : Document) : Option InOperator := do
  let path ← (body.get? "path").bind Path.ofValue?
  let comparands ← (body.get? "value").bind comparandsOf?
  let score ← scoreOf? body
  InOperator.ofComparands? path score comparands

/-- The `exists` operator of a body. -/
def ExistsOperator.ofBody? (body : Document) : Option ExistsOperator := do
  let path ← (body.get? "path").bind Path.ofValue?
  let score ← scoreOf? body
  return ⟨path, score⟩

/-- The number of a field of that name. -/
def minimumOf? (body : Document) : Option (Option UInt32) :=
  match body.get? "minimumShouldMatch" with
  | none => some none
  | some (.int64 n) => some (some (UInt32.ofNat n.toInt.toNat))
  | some _ => none

mutual

/-- The operator that a field of this name and value writes. -/
def Operator.ofEntry? (name : String) : Value → Option Operator
  | .document body =>
    if name = "in" then .isIn <$> InOperator.ofBody? body
    else if name = "exists" then .isPresent <$> ExistsOperator.ofBody? body
    else if name = "compound" then do
      let clauses ← clausesOf? body
      let minimum ← minimumOf? body
      let score ← scoreOf? body
      return .compound { clauses with minimumShouldMatch := minimum, score }
    else none
  | _ => none

/-- The clauses of a body. -/
def clausesOf? : List (String × Value) → Option (Compound Operator)
  | [] => some {}
  | (name, .array items) :: rest => do
    let clauses ← clausesOf? rest
    let clause ← Clause.all.find? fun c => c.name = name
    return clauses.append clause (← operatorsOf? items)
  | _ :: rest => clausesOf? rest

/-- The operators of a clause. -/
def operatorsOf? : List Value → Option (List Operator)
  | [] => some []
  | .document [(name, body)] :: rest => do
    let first ← Operator.ofEntry? name body
    return first :: (← operatorsOf? rest)
  | _ :: _ => none

end

/-! ### What is written is read back -/

@[simp] theorem Path.ofValue?_toValue (p : Path) : Path.ofValue? p.toValue = some p := by
  obtain ⟨path, multi⟩ := p
  cases multi <;> rfl

theorem Score.ofDocument?_toDocument (s : Score) :
    Score.ofDocument? s.toDocument = some s.withoutAnalyzer := by
  cases s with
  | boostPath path undefined => cases undefined <;> rfl
  | _ => rfl

/-- The score of a body that has no other field of that name. -/
theorem scoreOf?_append {body : Document} (noScore : body.get? "score" = none) (s : Option Score) :
    scoreOf? (body ++ scoreField s) = some (s.map Score.withoutAnalyzer) := by
  simp only [scoreOf?, Document.get?_append, noScore, Option.none_or, scoreField,
    Document.get?_field, if_true]
  cases s with
  | none => rfl
  | some s => simp [Score.ofDocument?_toDocument]

/-- Comparands are no null and no array. -/
theorem Comparands.bare_of_mem {c : Comparands} {v : Value} (member : v ∈ c.values) :
    comparandsOf? v = (Comparands.ofValues? [v]).map some := by
  cases c <;> obtain ⟨a, -, rfl⟩ := List.mem_map.1 member <;> rfl

theorem Uuid.ofBytes?_bytes (u : Uuid) : Uuid.ofBytes? u.bytes = some u := by
  simp [Uuid.ofBytes?, u.size_eq]

theorem Comparands.ofValues?_values {c : Comparands} (filled : c.values ≠ []) :
    Comparands.ofValues? c.values = some c := by
  cases c with
  | uuids values =>
      cases values with
      | nil => exact absurd rfl filled
      | cons u rest =>
          simp only [Comparands.values, List.map_cons, Comparands.ofValues?, List.filterMap_cons,
            List.filterMap_map, Function.comp_def, Uuid.ofBytes?_bytes, List.filterMap_some]
  | booleans values | objectIds values | int32s values | int64s values | doubles values
  | instants values | strings values =>
      cases values with
      | nil => exact absurd rfl filled
      | cons a rest =>
          simp only [Comparands.values, List.map_cons, Comparands.ofValues?, List.filterMap_cons,
            List.filterMap_map, Function.comp_def, List.filterMap_some]

/-- Null, a bare value and an array tell no comparands, one and several apart. -/
theorem comparandsOf?_value (o : InOperator) : comparandsOf? o.value = some o.comparands := by
  obtain ⟨path, comparands, score, filled⟩ := o
  cases comparands with
  | none => rfl
  | some c =>
      have filled := filled c rfl
      have read := Comparands.ofValues?_values filled
      simp only [InOperator.value, InOperator.values]
      -- A single value is no array, so it is not taken for several.
      split
      · next empty => exact absurd empty filled
      · next single one =>
          have member : single ∈ c.values := by rw [one]; exact List.mem_singleton_self single
          rw [Comparands.bare_of_mem member, ← one, read, Option.map_some]
      · rw [comparandsOf?, read, Option.map_some]

theorem InOperator.ofBody?_body (o : InOperator) :
    InOperator.ofBody? ([("path", o.path.toValue), ("value", o.value)] ++ scoreField o.score)
      = some { o with score := o.score.map Score.withoutAnalyzer } := by
  have score : scoreOf?
      ([("path", o.path.toValue), ("value", o.value)] ++ scoreField o.score) = _ :=
    scoreOf?_append rfl o.score
  have comparands := comparandsOf?_value o
  obtain ⟨path, given, _, filled⟩ := o
  simp only [InOperator.ofBody?, score, Document.get?_append, Document.get?_cons, if_true,
    Option.some_or, String.reduceEq, if_false, Option.bind_eq_bind, Option.bind_some,
    Path.ofValue?_toValue, comparands]
  cases given with
  | none => rfl
  | some c => rw [ofComparands?, dif_pos (filled c rfl)]

theorem ExistsOperator.ofBody?_body (o : ExistsOperator) :
    ExistsOperator.ofBody? (("path", o.path.toValue) :: scoreField o.score)
      = some { o with score := o.score.map Score.withoutAnalyzer } := by
  have score : scoreOf? ([("path", o.path.toValue)] ++ scoreField o.score) = _ :=
    scoreOf?_append rfl o.score
  rw [List.singleton_append] at score
  simp only [ExistsOperator.ofBody?, score, Document.get?_cons, if_true, Option.bind_eq_bind,
    Option.bind_some, Path.ofValue?_toValue]
  rfl

/-! ### Combinations -/

theorem Compound.append_nil (c : Compound Operator) (clause : Clause) : c.append clause [] = c := by
  cases clause <;> simp [Compound.append]

theorem get?_clauseField {key : String} {clause : Clause} (other : key ≠ clause.name)
    (docs : List Document) : Document.get? (clauseField clause docs) key = none := by
  rw [clauseField]
  split
  · rfl
  · rw [Document.get?_cons, if_neg other, Document.get?_nil]

/-- A clause in front of clauses that do not have it. -/
theorem clausesOf?_clauseField {clause : Clause} {docs : List Document} {rest : Document}
    {operators : List Operator} {c : Compound Operator}
    (items : operatorsOf? (docs.map .document) = some operators)
    (others : clausesOf? rest = some c) :
    clausesOf? (clauseField clause docs ++ rest) = some (c.append clause operators) := by
  cases docs with
  | nil =>
      obtain rfl := Option.some.inj items
      rw [Compound.append_nil]
      exact others
  | cons d docs =>
      have found : (Clause.all.find? fun c => c.name = clause.name) = some clause := by
        cases clause <;> decide
      have field : clauseField clause (d :: docs) = [(clause.name, Value.documents (d :: docs))] :=
        rfl
      simp only [field, List.singleton_append, Value.documents, clausesOf?, others, found, items,
        Option.bind_eq_bind, Option.bind_some]
      rfl

/-- The fields of a combination behind its clauses. -/
def settingFields (minimum : Option UInt32) (score : Option Score) : Document :=
  field "minimumShouldMatch" (minimum.map fun n => .int64 (Int64.ofNat n.toNat)) ++ scoreField score

/-- What follows the clauses is passed over. -/
theorem clausesOf?_settingFields (minimum : Option UInt32) (score : Option Score) :
    clausesOf? (settingFields minimum score) = some {} := by
  cases minimum <;> cases score <;> rfl

theorem minimumOf?_append {clauses : Document}
    (absent : clauses.get? "minimumShouldMatch" = none) (minimum : Option UInt32)
    (score : Option Score) :
    minimumOf? (clauses ++ settingFields minimum score) = some minimum := by
  simp only [minimumOf?, Document.get?_append, absent, Option.none_or, settingFields,
    Document.get?_field, if_true, scoreField, String.reduceEq, if_false, Option.or_none]
  cases minimum with
  | none => rfl
  | some n =>
      have small := n.toNat_lt
      have wide : (Int64.ofNat n.toNat).toInt = n.toNat := Int64.toInt_ofNat_of_lt (by omega)
      simp [wide]

/-- The body of a combination is read back, given how its clauses are. -/
theorem ofEntry?_compound {must mustNot should filter : List Document}
    {must' mustNot' should' filter' : List Operator}
    (readMust : operatorsOf? (must.map .document) = some must')
    (readMustNot : operatorsOf? (mustNot.map .document) = some mustNot')
    (readShould : operatorsOf? (should.map .document) = some should')
    (readFilter : operatorsOf? (filter.map .document) = some filter')
    (minimum : Option UInt32) (score : Option Score) :
    Operator.ofEntry? "compound" (.document (clauseField .must must ++ clauseField .mustNot mustNot
        ++ clauseField .should should ++ clauseField .filter filter
        ++ field "minimumShouldMatch" (minimum.map fun n => .int64 (Int64.ofNat n.toNat))
        ++ scoreField score))
      = some (.compound
        ⟨must', mustNot', should', filter', minimum, score.map Score.withoutAnalyzer⟩) := by
  let clauses : Document := clauseField .must must ++ clauseField .mustNot mustNot
    ++ clauseField .should should ++ clauseField .filter filter
  have readClauses : clausesOf? (clauses ++ settingFields minimum score)
      = some ⟨must', mustNot', should', filter', none, none⟩ := by
    simp only [clauses, List.append_assoc]
    exact clausesOf?_clauseField readMust (clausesOf?_clauseField readMustNot
      (clausesOf?_clauseField readShould (clausesOf?_clauseField readFilter
        (clausesOf?_settingFields minimum score))))
  -- The names of the clauses hide neither setting behind them.
  have absent : ∀ key : String, (∀ clause : Clause, key ≠ clause.name) →
      clauses.get? key = none := by
    intro key other
    simp only [clauses, Document.get?_append, get?_clauseField (other _), Option.or_none]
  have readMinimum := minimumOf?_append
    (absent "minimumShouldMatch" (by intro clause; cases clause <;> decide)) minimum score
  have noScore : Document.get? (clauses ++ field "minimumShouldMatch"
      (minimum.map fun n => .int64 (Int64.ofNat n.toNat))) "score" = none := by
    simp only [Document.get?_append, Document.get?_field, String.reduceEq, if_false,
      absent "score" (by intro clause; cases clause <;> decide), Option.or_none]
  have readScore := scoreOf?_append noScore score
  rw [List.append_assoc clauses, ← settingFields] at readScore
  rw [List.append_assoc, ← settingFields]
  simp only [Operator.ofEntry?, String.reduceEq, if_false, if_true]
  rw [readClauses, readMinimum, readScore]
  rfl

mutual

/-- The field of an operator is read back as the operator, without the analyzers that are not sent.
-/
theorem ofEntry?_toDocument : ∀ o : Operator, ∃ name body, o.toDocument = [(name, body)] ∧
    Operator.ofEntry? name body = some o.withoutBoostAnalyzers
  | .isIn o => by
      refine ⟨_, _, rfl, ?_⟩
      simp only [Operator.ofEntry?, if_true, InOperator.ofBody?_body]
      rfl
  | .isPresent o => by
      refine ⟨_, _, rfl, ?_⟩
      simp only [Operator.ofEntry?, String.reduceEq, if_false, if_true, ExistsOperator.ofBody?_body]
      rfl
  | .compound ⟨must, mustNot, should, filter, minimum, score⟩ =>
      ⟨_, _, rfl, ofEntry?_compound (operatorsOf?_operatorDocuments must)
        (operatorsOf?_operatorDocuments mustNot) (operatorsOf?_operatorDocuments should)
        (operatorsOf?_operatorDocuments filter) minimum score⟩

theorem operatorsOf?_operatorDocuments : ∀ operators : List Operator,
    operatorsOf? ((operatorDocuments operators).map .document)
      = some (operatorsWithoutBoostAnalyzers operators)
  | [] => rfl
  | o :: rest => by
      obtain ⟨name, body, entry, first⟩ := ofEntry?_toDocument o
      have others := operatorsOf?_operatorDocuments rest
      simp only [operatorDocuments, entry, List.map_cons, operatorsOf?, first, others]
      rfl

end

/-! ### Stages -/

/-- The text of a string. -/
def stringOf? : Value → Option String
  | .string s => some s
  | _ => none

/-- The truth value. -/
def boolOf? : Value → Option Bool
  | .bool b => some b
  | _ => none

/-- A field that a stage may have, read as `read` says. -/
def settingOf? {α : Type} (name : String) (read : Value → Option α) (body : Document) :
    Option (Option α) :=
  match body.get? name with
  | none => some none
  | some v => (read v).map some

/-- The operator and the settings that a stage writes. -/
def readStage? : Document → Option (Operator × StageOptions)
  | [("$search", .document body)] => do
    let operator ← body.findSome? fun e => Operator.ofEntry? e.1 e.2
    let index ← settingOf? "index" stringOf? body
    let source ← settingOf? "returnStoredSource" boolOf? body
    let details ← settingOf? "scoreDetails" boolOf? body
    return (operator, ⟨index, source, details⟩)
  | _ => none

theorem settingOf?_eq {α : Type} {name : String} {read : Value → Option α} {body : Document}
    {setting : Option α} {value : α → Value} (found : body.get? name = setting.map value)
    (reads : ∀ a, read (value a) = some a) : settingOf? name read body = some setting := by
  rw [settingOf?, found]
  cases setting with
  | none => rfl
  | some a => simp [reads]

/-- Only three names are those of operators. -/
theorem ofEntry?_name {name : String} {v : Value} {o : Operator}
    (read : Operator.ofEntry? name v = some o) : name ∈ ["in", "exists", "compound"] := by
  cases v with
  | document body =>
      apply Decidable.byContradiction
      intro other
      simp only [List.mem_cons, List.not_mem_nil, or_false, not_or] at other
      simp [Operator.ofEntry?, other] at read
  | _ => simp [Operator.ofEntry?] at read

theorem readStage?_stage (o : Operator) (p : StageOptions) :
    readStage? (stage o p) = some (o.withoutBoostAnalyzers, p) := by
  obtain ⟨name, v, entry, read⟩ := ofEntry?_toDocument o
  obtain ⟨index, source, details⟩ := p
  -- The settings have no name of an operator, so none of them is taken for the operator.
  have apart : ∀ key ∉ ["in", "exists", "compound"], key ≠ name := by
    intro key other same
    exact other (same ▸ ofEntry?_name read)
  have notIndex := apart "index" (by decide)
  have notSource := apart "returnStoredSource" (by decide)
  have notDetails := apart "scoreDetails" (by decide)
  let body : Document := field "index" (index.map .string) ++ [(name, v)]
    ++ field "returnStoredSource" (source.map .bool) ++ field "scoreDetails" (details.map .bool)
  have inIndex : body.get? "index" = index.map .string := by
    simp [body, Document.get?_append, Document.get?_cons, Document.get?_field, notIndex]
  have inSource : body.get? "returnStoredSource" = source.map .bool := by
    simp [body, Document.get?_append, Document.get?_cons, Document.get?_field, notSource]
  have inDetails : body.get? "scoreDetails" = details.map .bool := by
    simp [body, Document.get?_append, Document.get?_cons, Document.get?_field, notDetails]
  have operator : body.findSome? (fun e => Operator.ofEntry? e.1 e.2)
      = some o.withoutBoostAnalyzers := by
    cases index with
    | none => simp [body, field, read]
    | some s => simp [body, field, List.findSome?_cons, read, Operator.ofEntry?]
  have whole : stage o ⟨index, source, details⟩ = [("$search", .document body)] := by
    rw [stage, entry]
  have readIndex : settingOf? "index" stringOf? body = some index :=
    settingOf?_eq inIndex fun _ => rfl
  have readSource : settingOf? "returnStoredSource" boolOf? body = some source :=
    settingOf?_eq inSource fun _ => rfl
  have readDetails : settingOf? "scoreDetails" boolOf? body = some details :=
    settingOf?_eq inDetails fun _ => rfl
  simp only [whole, readStage?, operator, readIndex, readSource, readDetails]
  rfl

/-! ### What is not sent -/

theorem Score.toDocument_withoutAnalyzer (s : Score) :
    s.withoutAnalyzer.toDocument = s.toDocument := by
  cases s <;> rfl

theorem scoreField_withoutAnalyzer (s : Option Score) :
    scoreField (s.map Score.withoutAnalyzer) = scoreField s := by
  cases s with
  | none => rfl
  | some s =>
      rw [Option.map_some, scoreField, scoreField, Option.map_some, Option.map_some,
        s.toDocument_withoutAnalyzer]

mutual

/-- The analyzers of the paths in scores are not sent. -/
theorem toDocument_withoutBoostAnalyzers : ∀ o : Operator,
    o.withoutBoostAnalyzers.toDocument = o.toDocument
  | .isIn o => by
      simp only [Operator.withoutBoostAnalyzers, Operator.toDocument, InOperator.toDocument,
        scoreField_withoutAnalyzer]
      rfl
  | .isPresent o => by
      simp only [Operator.withoutBoostAnalyzers, Operator.toDocument, ExistsOperator.toDocument,
        scoreField_withoutAnalyzer]
  | .compound ⟨must, mustNot, should, filter, minimum, score⟩ => by
      simp only [Operator.withoutBoostAnalyzers, Operator.toDocument, scoreField_withoutAnalyzer,
        operatorDocuments_withoutBoostAnalyzers must,
        operatorDocuments_withoutBoostAnalyzers mustNot,
        operatorDocuments_withoutBoostAnalyzers should,
        operatorDocuments_withoutBoostAnalyzers filter]

theorem operatorDocuments_withoutBoostAnalyzers : ∀ operators : List Operator,
    operatorDocuments (operatorsWithoutBoostAnalyzers operators) = operatorDocuments operators
  | [] => rfl
  | o :: rest => by
      rw [operatorsWithoutBoostAnalyzers, operatorDocuments, operatorDocuments,
        toDocument_withoutBoostAnalyzers o, operatorDocuments_withoutBoostAnalyzers rest]

end

/-- A stage tells all that it was made from, except for the analyzers of the paths in scores, and it
can be read back. -/
theorem stage_eq_iff (a b : Operator) (p q : StageOptions) :
    readStage? (stage a p) = some (a.withoutBoostAnalyzers, p) ∧
      (stage a p = stage b q ↔ p = q ∧ a.withoutBoostAnalyzers = b.withoutBoostAnalyzers) := by
  constructor
  · exact readStage?_stage a p
  constructor
  · intro same
    have read := readStage?_stage a p
    rw [same, readStage?_stage b q] at read
    obtain ⟨operators, options⟩ := Prod.mk.inj (Option.some.inj read)
    exact ⟨options.symm, operators.symm⟩
  · rintro ⟨rfl, operators⟩
    have documents := congrArg Operator.toDocument operators
    rw [toDocument_withoutBoostAnalyzers, toDocument_withoutBoostAnalyzers] at documents
    rw [stage, stage, documents]

end DocumentCommand.Search
