import DocumentCommand.Proofs.Search.Reachable
import Mathlib.Data.Set.List

/-!
# The documents of operators

The documents that operators are encoded as form a language of their own, which this module
describes without the operators (`Grammar.IsOperator`).  The documents of reachable operators are
exactly those of the language (`isOperator_iff_reachable`).
-/

namespace DocumentCommand.Search

open Document (field)

/-! ### The language -/

namespace Grammar

/-- A path: a name, or a name with an analyzer. -/
inductive IsPath : Value → Prop where
  | name (path : String) : IsPath (.string path)
  | analyzed (path analyzer : String) :
      IsPath (.document [("value", .string path), ("multi", .string analyzer)])

/-- A modifier of relevance. -/
inductive IsScore : Document → Prop where
  | boost (x : Binary64) : IsScore [("boost", .document [("value", .double x)])]
  | boostPath (path : String) : IsScore [("boost", .document [("path", .string path)])]
  | boostPathOr (path : String) (x : Binary64) :
      IsScore [("boost", .document [("path", .string path), ("undefined", .double x)])]
  | constant (x : Binary64) : IsScore [("constant", .document [("value", .double x)])]
  | function (d : Document) : IsScore [("function", .document d)]

/-- The end of a body: a score, or nothing. -/
inductive IsScoreEnd : Document → Prop where
  | none : IsScoreEnd []
  | score {d : Document} (score : IsScore d) : IsScoreEnd [("score", .document d)]

/-- The types of scalars that fields are compared with. -/
inductive ScalarType where
  | bool | objectId | int32 | int64 | double | date | uuid | string

variable (clock : Instant → Prop)

/-- A scalar of a type; the instants are those of a clock. -/
inductive IsScalar : ScalarType → Value → Prop where
  | bool (b : Bool) : IsScalar .bool (.bool b)
  | objectId (id : ObjectId) : IsScalar .objectId (.objectId id)
  | int32 (n : Int32) : IsScalar .int32 (.int32 n)
  | int64 (n : Int64) : IsScalar .int64 (.int64 n)
  | double (x : Binary64) : IsScalar .double (.double x)
  | date (t : Instant) (ofClock : clock t) : IsScalar .date (.instant t)
  | uuid (bytes : List UInt8) (sixteen : bytes.length = 16) :
      IsScalar .uuid (.binary Value.uuidSubtype bytes)
  | string (s : String) : IsScalar .string (.string s)

/-- What a field is compared with: null, one scalar, or several of one type. -/
inductive IsComparand : Value → Prop where
  | null : IsComparand .null
  | single {type : ScalarType} {v : Value} (scalar : IsScalar clock type v) : IsComparand v
  | several {type : ScalarType} {vs : List Value} (many : 2 ≤ vs.length)
      (scalars : ∀ v ∈ vs, IsScalar clock type v) : IsComparand (.array vs)

/-- A number of operators that have to hold. -/
def IsMinimum (v : Value) : Prop :=
  ∃ n : Int64, v = .int64 n ∧ 0 ≤ n.toInt ∧ n.toInt < UInt32.size

/-- The document of an operator, with a body under the name of the operator.  What stands under a
clause of a combination are documents of operators, at least one. -/
inductive IsOperator : Document → Prop where
  | isIn {path value : Value} {scoreEnd : Document} (isPath : IsPath path)
      (isComparand : IsComparand clock value) (isScoreEnd : IsScoreEnd scoreEnd) :
      IsOperator [("in", .document ([("path", path), ("value", value)] ++ scoreEnd))]
  | isPresent {path : Value} {scoreEnd : Document} (isPath : IsPath path)
      (isScoreEnd : IsScoreEnd scoreEnd) :
      IsOperator [("exists", .document (("path", path) :: scoreEnd))]
  | compound {body : Document}
      (keys : body.names.Sublist
        ["must", "mustNot", "should", "filter", "minimumShouldMatch", "score"])
      (operators : Clause → List Document)
      (clauses : ∀ clause v, body.get? clause.name = some v →
        operators clause ≠ [] ∧ v = Value.documents (operators clause))
      (inner : ∀ clause, ∀ d ∈ operators clause, IsOperator d)
      (minimum : ∀ v, body.get? "minimumShouldMatch" = some v → IsMinimum v)
      (score : ∀ v, body.get? "score" = some v → ∃ d, v = .document d ∧ IsScore d) :
      IsOperator [("compound", .document body)]

end Grammar

open Grammar

variable {clock : Instant → Prop}

/-! ### Paths and scores -/

theorem isPath_iff {v : Value} : IsPath v ↔ ∃ p : Path, p.toValue = v := by
  constructor
  · rintro (⟨path⟩ | ⟨path, analyzer⟩)
    · exact ⟨⟨path, none⟩, rfl⟩
    · exact ⟨⟨path, some analyzer⟩, rfl⟩
  · rintro ⟨⟨path, analyzer⟩, rfl⟩
    cases analyzer with
    | none => exact .name path
    | some analyzer => exact .analyzed path analyzer

theorem isScore_iff {d : Document} : IsScore d ↔ ∃ s : Score, s.toDocument = d := by
  constructor
  · rintro (x | path | ⟨path, x⟩ | x | d)
    · exact ⟨.boost x, rfl⟩
    · exact ⟨.boostPath ⟨path, none⟩ none, rfl⟩
    · exact ⟨.boostPath ⟨path, none⟩ (some x), rfl⟩
    · exact ⟨.constant x, rfl⟩
    · exact ⟨.function d, rfl⟩
  · rintro ⟨s, rfl⟩
    cases s with
    | boost x => exact .boost x
    | boostPath path undefined =>
        cases undefined with
        | none => exact .boostPath path.path
        | some x => exact .boostPathOr path.path x
    | constant x => exact .constant x
    | function d => exact .function d

theorem isScoreEnd_iff {d : Document} : IsScoreEnd d ↔ ∃ s : Option Score, scoreField s = d := by
  constructor
  · intro isEnd
    cases isEnd with
    | none => exact ⟨none, rfl⟩
    | score score =>
        obtain ⟨s, rfl⟩ := isScore_iff.1 score
        exact ⟨some s, rfl⟩
  · rintro ⟨s, rfl⟩
    cases s with
    | none => exact .none
    | some s => exact .score (isScore_iff.2 ⟨s, rfl⟩)

/-! ### Comparands -/

/-- The type of the scalars. -/
def Comparands.scalarType : Comparands → ScalarType
  | .booleans _ => .bool
  | .objectIds _ => .objectId
  | .int32s _ => .int32
  | .int64s _ => .int64
  | .doubles _ => .double
  | .instants _ => .date
  | .uuids _ => .uuid
  | .strings _ => .string

/-- Comparands are scalars of one type. -/
theorem Comparands.isScalar_of_mem {c : Comparands} {v : Value}
    (dates : ∀ t, .instant t ∈ c.values → clock t) (member : v ∈ c.values) :
    IsScalar clock c.scalarType v := by
  cases c with
  | instants ts =>
      obtain ⟨t, -, rfl⟩ := List.mem_map.1 member
      exact .date t (dates t member)
  | uuids us =>
      obtain ⟨u, -, rfl⟩ := List.mem_map.1 member
      exact .uuid u.bytes u.size_eq
  | booleans vs | objectIds vs | int32s vs | int64s vs | doubles vs | strings vs =>
      obtain ⟨a, -, rfl⟩ := List.mem_map.1 member
      constructor

/-- Scalars of one type are comparands. -/
theorem exists_comparands {type : ScalarType} {vs : List Value}
    (scalars : ∀ v ∈ vs, IsScalar clock type v) : ∃ c : Comparands, c.values = vs := by
  have each : ∀ {α : Type} (make : List α → Comparands) (value : α → Value),
      (∀ as, (make as).values = as.map value) →
      (∀ v, IsScalar clock type v → ∃ a, value a = v) → ∃ c : Comparands, c.values = vs := by
    intro α make value values only
    have covered : vs ∈ Set.range (List.map value) := by
      rw [Set.range_list_map]
      exact fun v member => only v (scalars v member)
    obtain ⟨as, rfl⟩ := covered
    exact ⟨make as, values as⟩
  cases type with
  | bool => exact each .booleans _ (fun _ => rfl) fun | _, .bool b => ⟨b, rfl⟩
  | objectId => exact each .objectIds _ (fun _ => rfl) fun | _, .objectId id => ⟨id, rfl⟩
  | int32 => exact each .int32s _ (fun _ => rfl) fun | _, .int32 n => ⟨n, rfl⟩
  | int64 => exact each .int64s _ (fun _ => rfl) fun | _, .int64 n => ⟨n, rfl⟩
  | double => exact each .doubles _ (fun _ => rfl) fun | _, .double x => ⟨x, rfl⟩
  | date => exact each .instants _ (fun _ => rfl) fun | _, .date t _ => ⟨t, rfl⟩
  | uuid => exact each .uuids _ (fun _ => rfl) fun | _, .uuid bytes size => ⟨⟨bytes, size⟩, rfl⟩
  | string => exact each .strings _ (fun _ => rfl) fun | _, .string s => ⟨s, rfl⟩

/-- An `in` operator compares with null, with one scalar or with several of one type. -/
theorem InOperator.isComparand_value {o : InOperator}
    (dates : ∀ t, .instant t ∈ o.values → clock t) : IsComparand clock o.value := by
  obtain ⟨path, comparands, score, filled⟩ := o
  cases comparands with
  | none => exact .null
  | some c =>
      have scalars : ∀ v ∈ c.values, IsScalar clock c.scalarType v :=
        fun v => Comparands.isScalar_of_mem dates
      simp only [InOperator.value, InOperator.values]
      split
      · exact .null
      · next single one =>
          apply IsComparand.single
          apply scalars
          rw [one]
          exact List.mem_singleton_self single
      · next filled several =>
          have many : 2 ≤ c.values.length := by
            rcases values : c.values with _ | ⟨first, _ | ⟨second, rest⟩⟩
            · exact absurd values filled
            · exact absurd values (several first)
            · exact Nat.le_add_left 2 rest.length
          exact .several many scalars

/-- An `in` operator over scalars of one type compares with them and has the instants of a clock. -/
theorem exists_inOperator_of_scalars (path : Path) (score : Option Score) {type : ScalarType}
    {vs : List Value} (filled : vs ≠ []) (scalars : ∀ v ∈ vs, IsScalar clock type v) :
    ∃ o : InOperator, o.path = path ∧ o.score = score ∧ o.values = vs ∧
      ∀ t, .instant t ∈ o.values → clock t := by
  obtain ⟨c, rfl⟩ := exists_comparands scalars
  refine ⟨⟨path, some c, score, ?_⟩, rfl, rfl, rfl, ?_⟩
  · rintro _ ⟨⟩
    exact filled
  · intro t member
    cases scalars (.instant t) member with
    | date _ ofClock => exact ofClock

/-- Whatever a field may be compared with, some `in` operator compares with it. -/
theorem exists_inOperator (path : Path) (score : Option Score) {v : Value}
    (comparand : IsComparand clock v) :
    ∃ o : InOperator, o.path = path ∧ o.score = score ∧ o.value = v ∧
      ∀ t, .instant t ∈ o.values → clock t := by
  cases comparand with
  | null => exact ⟨⟨path, none, score, by rintro _ ⟨⟩⟩, rfl, rfl, rfl, fun _ => nofun⟩
  | single scalar =>
      obtain ⟨o, samePath, sameScore, values, dates⟩ := exists_inOperator_of_scalars path score
        (List.cons_ne_nil v []) (List.forall_mem_singleton.2 scalar)
      exact ⟨o, samePath, sameScore, by rw [InOperator.value, values], dates⟩
  | @several type vs many scalars =>
      have filled : vs ≠ [] := by
        rintro rfl
        exact absurd many (by decide)
      obtain ⟨o, samePath, sameScore, rfl, dates⟩ :=
        exists_inOperator_of_scalars path score filled scalars
      refine ⟨o, samePath, sameScore, ?_, dates⟩
      rw [InOperator.value]
      split
      · next empty => exact absurd empty filled
      · next single one =>
          rw [one] at many
          exact absurd many (Nat.not_succ_le_self 1)
      · rfl

/-! ### Combinations -/

/-- The body of a combination. -/
def compoundBody (operators : Clause → List Document) (minimum : Option UInt32)
    (score : Option Score) : Document :=
  clauseField .must (operators .must) ++ clauseField .mustNot (operators .mustNot)
    ++ clauseField .should (operators .should) ++ clauseField .filter (operators .filter)
    ++ field "minimumShouldMatch" (minimum.map fun n => .int64 (Int64.ofNat n.toNat))
    ++ scoreField score

theorem toDocument_compound (c : Compound Operator) :
    (Operator.compound c).toDocument = [("compound", .document (compoundBody
      (fun clause => operatorDocuments (c.get clause)) c.minimumShouldMatch c.score))] := by
  cases c
  rfl

/-- The operators of a clause as the value of a field, if there are any. -/
def clauseValue? (operators : List Document) : Option Value :=
  if operators.isEmpty then none else some (Value.documents operators)

theorem clauseField_eq_field (clause : Clause) (operators : List Document) :
    clauseField clause operators = field clause.name (clauseValue? operators) := by
  cases operators <;> rfl

theorem names_compoundBody_sublist (operators : Clause → List Document) (minimum : Option UInt32)
    (score : Option Score) : (compoundBody operators minimum score).names.Sublist
      ["must", "mustNot", "should", "filter", "minimumShouldMatch", "score"] := by
  simp only [compoundBody, clauseField_eq_field, scoreField]
  have must := Document.names_field_sublist "must" (clauseValue? (operators .must))
  have mustNot := Document.names_append_field_sublist must "mustNot"
    (clauseValue? (operators .mustNot))
  have should := Document.names_append_field_sublist mustNot "should"
    (clauseValue? (operators .should))
  have filter := Document.names_append_field_sublist should "filter"
    (clauseValue? (operators .filter))
  have minimum := Document.names_append_field_sublist filter "minimumShouldMatch"
    (minimum.map fun n => .int64 (Int64.ofNat n.toNat))
  exact Document.names_append_field_sublist minimum "score"
    (score.map fun s => .document s.toDocument)

theorem get?_compoundBody_clause (operators : Clause → List Document) (minimum : Option UInt32)
    (score : Option Score) (clause : Clause) :
    (compoundBody operators minimum score).get? clause.name = clauseValue? (operators clause) := by
  simp only [compoundBody, clauseField_eq_field, scoreField, Document.get?_append,
    Document.get?_field]
  cases clause <;> simp [Clause.name]

theorem get?_compoundBody_minimum (operators : Clause → List Document) (minimum : Option UInt32)
    (score : Option Score) : (compoundBody operators minimum score).get? "minimumShouldMatch"
      = minimum.map fun n => .int64 (Int64.ofNat n.toNat) := by
  simp [compoundBody, clauseField_eq_field, scoreField, Document.get?_append, Document.get?_field,
    Clause.name]

theorem get?_compoundBody_score (operators : Clause → List Document) (minimum : Option UInt32)
    (score : Option Score) : (compoundBody operators minimum score).get? "score"
      = score.map fun s => .document s.toDocument := by
  simp [compoundBody, clauseField_eq_field, scoreField, Document.get?_append, Document.get?_field,
    Clause.name]

theorem isMinimum_iff {v : Value} :
    IsMinimum v ↔ ∃ n : UInt32, Value.int64 (Int64.ofNat n.toNat) = v := by
  have wide : ∀ n < UInt32.size, (Int64.ofNat n).toInt = n := by
    intro n below
    have room : UInt32.size < 2 ^ 63 := by decide
    exact Int64.toInt_ofNat_of_lt (Nat.lt_trans below room)
  constructor
  · rintro ⟨n, rfl, least, below⟩
    have small : n.toInt.toNat < UInt32.size := by omega
    have word : (UInt32.ofNat n.toInt.toNat).toNat = n.toInt.toNat := UInt32.toNat_ofNat_of_lt small
    refine ⟨UInt32.ofNat n.toInt.toNat, congrArg Value.int64 (Int64.toInt_inj.1 ?_)⟩
    rw [word, wide _ small]
    exact Int.toNat_of_nonneg least
  · rintro ⟨n, rfl⟩
    have below : n.toNat < UInt32.size := n.toNat_lt
    have same := wide n.toNat below
    exact ⟨_, rfl, by omega, by omega⟩

/-- The body of a combination belongs to the language, given that its operators do. -/
theorem isOperator_compoundBody (operators : Clause → List Document) (minimum : Option UInt32)
    (score : Option Score)
    (inner : ∀ clause, ∀ d ∈ operators clause, IsOperator clock d) :
    IsOperator clock [("compound", .document (compoundBody operators minimum score))] := by
  apply IsOperator.compound (names_compoundBody_sublist operators minimum score) operators
  case clauses =>
    intro clause v found
    rw [get?_compoundBody_clause, clauseValue?] at found
    split at found
    · cases found
    · next filled =>
        cases found
        exact ⟨fun empty => filled (List.isEmpty_iff.2 empty), rfl⟩
  case inner => exact inner
  case minimum =>
    intro v found
    rw [get?_compoundBody_minimum] at found
    obtain ⟨n, -, same⟩ := Option.map_eq_some_iff.1 found
    exact isMinimum_iff.2 ⟨n, same⟩
  case score =>
    intro v found
    rw [get?_compoundBody_score] at found
    obtain ⟨s, -, rfl⟩ := Option.map_eq_some_iff.1 found
    exact ⟨s.toDocument, rfl, isScore_iff.2 ⟨s, rfl⟩⟩

mutual

/-- The document of a reachable operator belongs to the language. -/
theorem isOperator_toDocument : ∀ o : Operator, o.Reachable clock → IsOperator clock o.toDocument
  | .isIn o, reachable =>
      .isIn (isPath_iff.2 ⟨o.path, rfl⟩) (InOperator.isComparand_value reachable.admits)
        (isScoreEnd_iff.2 ⟨o.score, rfl⟩)
  | .isPresent o, _ => .isPresent (isPath_iff.2 ⟨o.path, rfl⟩) (isScoreEnd_iff.2 ⟨o.score, rfl⟩)
  | .compound ⟨must, mustNot, should, filter, minimum, score⟩, reachable => by
      have operands := reachable.admits
      rw [toDocument_compound]
      apply isOperator_compoundBody
      intro clause
      cases clause with
      | must => exact isOperator_operatorDocuments must (operands .must)
      | mustNot => exact isOperator_operatorDocuments mustNot (operands .mustNot)
      | should => exact isOperator_operatorDocuments should (operands .should)
      | filter => exact isOperator_operatorDocuments filter (operands .filter)

theorem isOperator_operatorDocuments : ∀ operators : List Operator,
    (∀ o ∈ operators, o.Reachable clock) → ∀ d ∈ operatorDocuments operators, IsOperator clock d
  | [], _ => List.forall_mem_nil _
  | o :: rest, reachable => by
      obtain ⟨first, others⟩ := List.forall_mem_cons.1 reachable
      rw [operatorDocuments, List.forall_mem_cons]
      exact ⟨isOperator_toDocument o first, isOperator_operatorDocuments rest others⟩

end

/-! ### Every document of the language -/

/-- Documents of reachable operators are what a list of reachable operators is encoded as. -/
theorem exists_operators {ds : List Document}
    (each : ∀ d ∈ ds, ∃ o : Operator, o.Reachable clock ∧ o.toDocument = d) :
    ∃ operators : List Operator, (∀ o ∈ operators, o.Reachable clock) ∧
      operatorDocuments operators = ds := by
  induction ds with
  | nil => exact ⟨[], List.forall_mem_nil _, rfl⟩
  | cons d rest ih =>
      obtain ⟨⟨o, reachable, rfl⟩, others⟩ := List.forall_mem_cons.1 each
      obtain ⟨operators, allReachable, rfl⟩ := ih others
      exact ⟨o :: operators, List.forall_mem_cons.2 ⟨reachable, allReachable⟩, rfl⟩

/-- A body with the fields of a combination in their order is the body of that combination. -/
theorem eq_compoundBody {body : Document} {operators : Clause → List Document}
    {minimum : Option UInt32} {score : Option Score}
    (keys : body.names.Sublist
      ["must", "mustNot", "should", "filter", "minimumShouldMatch", "score"])
    (clauses : ∀ clause : Clause, body.get? clause.name = clauseValue? (operators clause))
    (sameMinimum : body.get? "minimumShouldMatch"
      = minimum.map fun n => .int64 (Int64.ofNat n.toNat))
    (sameScore : body.get? "score" = score.map fun s => .document s.toDocument) :
    body = compoundBody operators minimum score := by
  have order : ["must", "mustNot", "should", "filter", "minimumShouldMatch", "score"].Nodup := by
    decide
  have names := names_compoundBody_sublist operators minimum score
  rw [Document.eq_record_of_names_sublist order names fun _ _ => rfl]
  apply Document.eq_record_of_names_sublist order keys
  intro key member
  simp only [List.mem_cons, List.not_mem_nil, or_false] at member
  rcases member with rfl | rfl | rfl | rfl | rfl | rfl
  · exact (clauses .must).trans (get?_compoundBody_clause operators minimum score .must).symm
  · exact (clauses .mustNot).trans (get?_compoundBody_clause operators minimum score .mustNot).symm
  · exact (clauses .should).trans (get?_compoundBody_clause operators minimum score .should).symm
  · exact (clauses .filter).trans (get?_compoundBody_clause operators minimum score .filter).symm
  · exact sameMinimum.trans (get?_compoundBody_minimum operators minimum score).symm
  · exact sameScore.trans (get?_compoundBody_score operators minimum score).symm

theorem exists_minimum {found : Option Value} (isMinimum : ∀ v, found = some v → IsMinimum v) :
    ∃ minimum : Option UInt32, found = minimum.map fun n => .int64 (Int64.ofNat n.toNat) := by
  cases found with
  | none => exact ⟨none, rfl⟩
  | some v =>
      obtain ⟨n, rfl⟩ := isMinimum_iff.1 (isMinimum v rfl)
      exact ⟨some n, rfl⟩

theorem exists_score {found : Option Value}
    (isScore : ∀ v, found = some v → ∃ d, v = .document d ∧ IsScore d) :
    ∃ score : Option Score, found = score.map fun s => .document s.toDocument := by
  cases found with
  | none => exact ⟨none, rfl⟩
  | some v =>
      obtain ⟨d, rfl, scored⟩ := isScore v rfl
      obtain ⟨s, rfl⟩ := isScore_iff.1 scored
      exact ⟨some s, rfl⟩

/-- What stands under a clause are the documents of reachable operators, none where the clause is
missing. -/
theorem exists_clauses {body : Document} {operators : Clause → List Document}
    (clauses : ∀ clause v, body.get? clause.name = some v →
      operators clause ≠ [] ∧ v = Value.documents (operators clause))
    (each : ∀ clause, ∀ d ∈ operators clause, ∃ o : Operator, o.Reachable clock ∧ o.toDocument = d)
    (clause : Clause) :
    ∃ os : List Operator, (∀ o ∈ os, o.Reachable clock) ∧
      body.get? clause.name = clauseValue? (operatorDocuments os) := by
  cases found : body.get? clause.name with
  | none => exact ⟨[], List.forall_mem_nil _, rfl⟩
  | some v =>
      obtain ⟨filled, rfl⟩ := clauses clause v found
      obtain ⟨os, reachable, documents⟩ := exists_operators (each clause)
      refine ⟨os, reachable, ?_⟩
      rw [documents, clauseValue?, if_neg fun empty => filled (List.isEmpty_iff.1 empty)]

/-- Every document of the language is the document of a reachable operator. -/
theorem exists_reachable {d : Document} (isOperator : IsOperator clock d) :
    ∃ o : Operator, o.Reachable clock ∧ o.toDocument = d := by
  induction isOperator with
  | isIn isPath isComparand isScoreEnd =>
      obtain ⟨path, rfl⟩ := isPath_iff.1 isPath
      obtain ⟨score, rfl⟩ := isScoreEnd_iff.1 isScoreEnd
      obtain ⟨o, rfl, rfl, rfl, dates⟩ := exists_inOperator path score isComparand
      exact ⟨.isIn o, Operator.reachable_isIn dates, rfl⟩
  | isPresent isPath isScoreEnd =>
      obtain ⟨path, rfl⟩ := isPath_iff.1 isPath
      obtain ⟨score, rfl⟩ := isScoreEnd_iff.1 isScoreEnd
      exact ⟨.isPresent ⟨path, score⟩, Operator.reachable_isPresent ⟨path, score⟩, rfl⟩
  | compound keys operators clauses inner isMinimum isScore each =>
      obtain ⟨minimum, sameMinimum⟩ := exists_minimum isMinimum
      obtain ⟨score, sameScore⟩ := exists_score isScore
      choose os reachable written using exists_clauses clauses each
      let c : Compound Operator := ⟨os .must, os .mustNot, os .should, os .filter, minimum, score⟩
      have clauseOf : ∀ clause : Clause, c.get clause = os clause := by
        intro clause
        cases clause <;> rfl
      refine ⟨.compound c, Operator.reachable_compound ?_, ?_⟩
      · intro clause
        rw [clauseOf]
        exact reachable clause
      · simp only [toDocument_compound, clauseOf]
        rw [← eq_compoundBody keys written sameMinimum sameScore]

/-- The documents of reachable operators are exactly those of the language, whichever instants there
are to compare with. -/
theorem isOperator_iff_reachable (clock : Instant → Prop) (d : Document) :
    IsOperator clock d ↔ ∃ o : Operator, o.Reachable clock ∧ o.toDocument = d := by
  constructor
  · exact exists_reachable
  · rintro ⟨o, reachable, rfl⟩
    exact isOperator_toDocument o reachable

end DocumentCommand.Search
