import DocumentCommand.Search.Score

/-!
# Search operators

An operator is a predicate on indexed documents: the field holds one of some values, the field is
there, or a combination of further operators holds.

The values of one `in` operator are all of one kind.  `Comparands` keeps them apart by type, so
lists of mixed kinds do not exist, and an `in` operator that compares values has at least one.  An
operator without comparands asks whether the field is null.
-/

namespace DocumentCommand.Search

/-- Sixteen bytes that identify anything. -/
structure Uuid where
  bytes : List UInt8
  size_eq : bytes.length = 16
deriving DecidableEq, Repr

/-- The identifier of the given bytes, none unless there are sixteen. -/
def Uuid.ofBytes? (bytes : List UInt8) : Option Uuid :=
  if h : bytes.length = 16 then some ⟨bytes, h⟩ else none

/-- The kind that all values of one `in` operator share. -/
inductive Kind where
  | boolean | objectId | number | date | uuid | string
  /-- No values: the operator asks for null. -/
  | null
deriving DecidableEq, Repr

/-- The name of a kind. -/
def Kind.name : Kind → String
  | .boolean => "Boolean"
  | .objectId => "ObjectId"
  | .number => "Number"
  | .date => "Date"
  | .uuid => "Uuid"
  | .string => "String"
  | .null => "Null"

/-- Values to compare a field with, all of one type. -/
inductive Comparands where
  | booleans (values : List Bool)
  | objectIds (values : List ObjectId)
  | int32s (values : List Int32)
  | int64s (values : List Int64)
  | doubles (values : List Binary64)
  | instants (values : List Instant)
  | uuids (values : List Uuid)
  | strings (values : List String)
deriving DecidableEq, Repr

namespace Comparands

/-- The kind of the values.  Numbers of all types are of one kind. -/
def kind : Comparands → Kind
  | .booleans _ => .boolean
  | .objectIds _ => .objectId
  | .int32s _ | .int64s _ | .doubles _ => .number
  | .instants _ => .date
  | .uuids _ => .uuid
  | .strings _ => .string

/-- The values in the order in which they were given. -/
def values : Comparands → List Value
  | .booleans vs => vs.map .bool
  | .objectIds vs => vs.map .objectId
  | .int32s vs => vs.map .int32
  | .int64s vs => vs.map .int64
  | .doubles vs => vs.map .double
  | .instants vs => vs.map .instant
  | .uuids vs => vs.map fun u => .binary Value.uuidSubtype u.bytes
  | .strings vs => vs.map .string

end Comparands

/-- Asks whether a field holds one of some values, or null where there are no comparands. -/
structure InOperator where
  path : Path
  comparands : Option Comparands
  score : Option Score := none
  values_ne_nil : ∀ c, comparands = some c → c.values ≠ [] := by simp
deriving Repr

namespace InOperator

/-- The kind of the values, null where the operator asks for null. -/
def kind (o : InOperator) : Kind :=
  match o.comparands with
  | some c => c.kind
  | none => .null

/-- The values in order, none where the operator asks for null. -/
def values (o : InOperator) : List Value :=
  match o.comparands with
  | some c => c.values
  | none => []

/-- Does the operator ask for null? -/
def isNullCheck (o : InOperator) : Bool :=
  o.kind = .null

/-- The operator with another score. -/
def withScore (o : InOperator) (s : Score) : InOperator :=
  { o with score := some s }

end InOperator

/-- Asks whether a field is there. -/
structure ExistsOperator where
  path : Path
  score : Option Score := none
deriving Repr, Inhabited

/-- The operator with another score. -/
def ExistsOperator.withScore (o : ExistsOperator) (s : Score) : ExistsOperator :=
  { o with score := some s }

/-- The clauses of a combination. -/
inductive Clause where
  /-- Each operator has to hold. -/
  | must
  /-- No operator may hold. -/
  | mustNot
  /-- Operators that hold raise the score. -/
  | should
  /-- Each operator has to hold, and none changes the score. -/
  | filter
deriving DecidableEq, Repr

namespace Clause

/-- The clauses in order. -/
def all : List Clause := [.must, .mustNot, .should, .filter]

/-- The name of a clause. -/
def name : Clause → String
  | .must => "must"
  | .mustNot => "mustNot"
  | .should => "should"
  | .filter => "filter"

end Clause

/-- A combination of operators by clauses. -/
structure Compound (α : Type) where
  must : List α := []
  mustNot : List α := []
  should : List α := []
  filter : List α := []
  minimumShouldMatch : Option UInt32 := none
  score : Option Score := none
deriving Repr, Inhabited

namespace Compound

variable {α : Type}

/-- The operators of a clause. -/
def get (c : Compound α) : Clause → List α
  | .must => c.must
  | .mustNot => c.mustNot
  | .should => c.should
  | .filter => c.filter

/-- The combination with further operators at the end of a clause. -/
def append (c : Compound α) (clause : Clause) (operators : List α) : Compound α :=
  match clause with
  | .must => { c with must := c.must ++ operators }
  | .mustNot => { c with mustNot := c.mustNot ++ operators }
  | .should => { c with should := c.should ++ operators }
  | .filter => { c with filter := c.filter ++ operators }

/-- The combination with another score. -/
def withScore (c : Compound α) (s : Score) : Compound α :=
  { c with score := some s }

end Compound

/-- A predicate on indexed documents. -/
inductive Operator where
  | isIn (o : InOperator)
  | isPresent (o : ExistsOperator)
  | compound (c : Compound Operator)
deriving Repr

namespace Operator

/-- The score modifier. -/
def score : Operator → Option Score
  | .isIn o => o.score
  | .isPresent o => o.score
  | .compound c => c.score

/-- The operator with another score. -/
def withScore (o : Operator) (s : Score) : Operator :=
  match o with
  | .isIn o => .isIn (o.withScore s)
  | .isPresent o => .isPresent (o.withScore s)
  | .compound c => .compound (c.withScore s)

end Operator

end DocumentCommand.Search
