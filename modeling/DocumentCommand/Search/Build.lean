import DocumentCommand.Error
import DocumentCommand.Logging.Record
import DocumentCommand.Search.Operator

/-!
# Building search operators

Operators are built by a few factories and by the calls of a combination.  Two things are refused,
each with one warning in the log: an `in` operator over no values, and a clause over no operators.
A clause that is given several times keeps all its operators, in the order of the calls.
-/

namespace DocumentCommand.Search

/-- Why an operator cannot be built. -/
inductive BuildError where
  | noValues (path : Path)
  | emptyClause (clause : Clause)
deriving DecidableEq, Repr

namespace BuildError

/-- The text of the cause. -/
def message : BuildError → String
  | .noValues path => "in operator on path '" ++ path.display ++ "' requires at least one value"
  | .emptyClause clause =>
    "compound '" ++ clause.name ++ "' clause requires at least one operator"

/-- The warning that is logged when the cause arises. -/
def warning : BuildError → LogRecord
  | .noValues path =>
    ⟨.warn, "nexus_model::search::in_operator",
      "in operator on path '" ++ path.display ++ "' built without values"⟩
  | .emptyClause clause =>
    ⟨.warn, "nexus_model::search::compound",
      "compound '" ++ clause.name ++ "' clause built without operators"⟩

/-- The cause as an error of the library. -/
def toError (e : BuildError) : Error :=
  .construction e.message

end BuildError

/-- The building of something, with what it logs. -/
abbrev Build (α : Type) := ExceptT BuildError Logged α

/-- Logs the warning of a cause and gives up. -/
def refuse {α : Type} (e : BuildError) : Build α := do
  liftM (Logged.log e.warning)
  throw e

/-- An operator that asks whether a field holds one of the values. -/
def inValues (path : Path) (comparands : Comparands) : Build InOperator :=
  if h : comparands.values = [] then refuse (.noValues path)
  else
    return ⟨path, some comparands, none, by intro c eq; cases eq; exact h⟩

/-- An operator that asks whether a field is null. -/
def inNull (path : Path) : InOperator :=
  ⟨path, none, none, by simp⟩

/-- An operator that asks whether a field is there. -/
def hasField (path : Path) : ExistsOperator :=
  { path }

/-- A call on a combination that is being built. -/
inductive Compound.Call (α : Type) where
  /-- More operators for a clause. -/
  | clause (c : Clause) (operators : List α)
  | minimumShouldMatch (n : UInt32)
  | score (s : Score)
deriving Repr

namespace Compound

variable {α : Type}

/-- The combination after a call. -/
def apply (c : Compound α) : Call α → Build (Compound α)
  | .clause clause operators =>
    if operators.isEmpty then refuse (.emptyClause clause)
    else return c.append clause operators
  | .minimumShouldMatch n => return { c with minimumShouldMatch := some n }
  | .score s => return c.withScore s

/-- The combination that calls build from an empty one; the first call that is refused ends it. -/
def build (calls : List (Call α)) : Build (Compound α) :=
  calls.foldlM apply {}

end Compound

end DocumentCommand.Search
