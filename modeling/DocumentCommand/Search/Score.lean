import DocumentCommand.Search.Path

/-!
# Score modifiers

How the relevance of the documents that an operator matches is changed.
-/

namespace DocumentCommand.Search

/-- A modifier of relevance. -/
inductive Score where
  /-- Multiplies by a factor. -/
  | boost (value : Binary64)
  /-- Multiplies by a numeric field, or by the second value where the field is missing. -/
  | boostPath (path : Path) (undefined : Option Binary64)
  /-- Puts a value in its place. -/
  | constant (value : Binary64)
  /-- Puts the result of an expression in its place. -/
  | function (expression : Document)
deriving Repr, Inhabited

namespace Score

/-- The modifier in a search stage.  Only the name of a path's field is sent, not its analyzer. -/
def toDocument : Score → Document
  | .boost value => [("boost", .document [("value", .double value)])]
  | .boostPath path undefined =>
    [("boost", .document
      (("path", .string path.path) :: Document.field "undefined" (undefined.map .double)))]
  | .constant value => [("constant", .document [("value", .double value)])]
  | .function expression => [("function", .document expression)]

/-- Comparison with doubles taken as numbers. -/
def same : Score → Score → Bool
  | .boost a, .boost b => a.same b
  | .boostPath p (some a), .boostPath q (some b) => p == q && a.same b
  | .boostPath p none, .boostPath q none => p == q
  | .constant a, .constant b => a.same b
  | .function a, .function b => a.same b
  | _, _ => false

/-- Comparison of modifiers that may be absent. -/
def sameOption : Option Score → Option Score → Bool
  | some a, some b => a.same b
  | none, none => true
  | _, _ => false

end Score

end DocumentCommand.Search
