import DocumentCommand.Search.Operator

/-!
# Operators as documents

An operator is a document of one field named for its variant.  An `in` operator over a single value
sends the bare value, one over several an array and one that asks for null the null value.  A
combination sends the clauses that have operators.
-/

namespace DocumentCommand.Search

/-- The field of a score, if there is one. -/
def scoreField (s : Option Score) : Document :=
  Document.field "score" (s.map fun s => .document s.toDocument)

/-- What an `in` operator compares with. -/
def InOperator.value (o : InOperator) : Value :=
  match o.values with
  | [] => .null
  | [single] => single
  | many => .array many

/-- The document of an `in` operator. -/
def InOperator.toDocument (o : InOperator) : Document :=
  [("in", .document ([("path", o.path.toValue), ("value", o.value)] ++ scoreField o.score))]

/-- The document of an `exists` operator. -/
def ExistsOperator.toDocument (o : ExistsOperator) : Document :=
  [("exists", .document (("path", o.path.toValue) :: scoreField o.score))]

/-- The field of a clause, if it has operators. -/
def clauseField (clause : Clause) (operators : List Document) : Document :=
  if operators.isEmpty then [] else [(clause.name, Value.documents operators)]

mutual

/-- The document of an operator. -/
def Operator.toDocument : Operator → Document
  | .isIn o => o.toDocument
  | .isPresent o => o.toDocument
  | .compound ⟨must, mustNot, should, filter, minimum, score⟩ =>
    [("compound", .document
      (clauseField .must (operatorDocuments must)
        ++ clauseField .mustNot (operatorDocuments mustNot)
        ++ clauseField .should (operatorDocuments should)
        ++ clauseField .filter (operatorDocuments filter)
        ++ Document.field "minimumShouldMatch"
          (minimum.map fun n => .int64 (Int64.ofNat n.toNat))
        ++ scoreField score))]

/-- The documents of operators. -/
def operatorDocuments : List Operator → List Document
  | [] => []
  | o :: rest => o.toDocument :: operatorDocuments rest

end

/-- The document of a combination. -/
def Compound.toDocument (c : Compound Operator) : Document :=
  (Operator.compound c).toDocument

mutual

/-- Comparison with doubles taken as numbers. -/
def Operator.same : Operator → Operator → Bool
  | .isIn a, .isIn b =>
    a.path == b.path && a.kind == b.kind && Value.sameItems a.values b.values
      && Score.sameOption a.score b.score
  | .isPresent a, .isPresent b => a.path == b.path && Score.sameOption a.score b.score
  | .compound ⟨must, mustNot, should, filter, minimum, score⟩, .compound b =>
    sameOperators must b.must && sameOperators mustNot b.mustNot && sameOperators should b.should
      && sameOperators filter b.filter && minimum == b.minimumShouldMatch
      && Score.sameOption score b.score
  | _, _ => false

/-- Comparison of lists of operators, in order. -/
def sameOperators : List Operator → List Operator → Bool
  | [], [] => true
  | a :: as, b :: bs => a.same b && sameOperators as bs
  | _, _ => false

end

end DocumentCommand.Search
