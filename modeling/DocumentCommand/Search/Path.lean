import DocumentCommand.Value.Basic

/-!
# Paths of indexed fields

A path names a field of indexed documents and, if wanted, one of the further analyzers that the
index declares for it.
-/

namespace DocumentCommand.Search

/-- The locator of a field. -/
structure Path where
  path : String
  /-- The further analyzer, nothing for the ordinary one. -/
  multi : Option String := none
deriving DecidableEq, Repr, Inhabited

namespace Path

/-- The path with a further analyzer. -/
def withMulti (p : Path) (analyzer : String) : Path :=
  { p with multi := some analyzer }

/-- The path in a search stage: a string, or a document where there is an analyzer. -/
def toValue (p : Path) : Value :=
  match p.multi with
  | some analyzer => .document [("value", .string p.path), ("multi", .string analyzer)]
  | none => .string p.path

/-- The path in messages. -/
def display (p : Path) : String :=
  match p.multi with
  | some analyzer => p.path ++ " (multi: " ++ analyzer ++ ")"
  | none => p.path

end Path

end DocumentCommand.Search
