/-!
# Log records

What the library has to say while it works is data: a computation that logs returns its records
beside its result, oldest first.
-/

namespace DocumentCommand

/-- How important a record is. -/
inductive Severity where
  | error | warn | info | debug | trace
deriving DecidableEq, Repr

/-- The word for a severity. -/
def Severity.name : Severity → String
  | .error => "ERROR"
  | .warn => "WARN"
  | .info => "INFO"
  | .debug => "DEBUG"
  | .trace => "TRACE"

/-- A record of the log. -/
structure LogRecord where
  severity : Severity
  /-- The part of the library that speaks. -/
  target : String
  message : String
deriving DecidableEq, Repr

/-- The target of commands, which have a log file of their own. -/
def commandTarget : String := "nexus_model::command"

/-- A result together with the records that were logged on the way to it. -/
structure Logged (α : Type) where
  result : α
  records : List LogRecord
deriving Repr

namespace Logged

/-- Logs one record. -/
def log (r : LogRecord) : Logged Unit :=
  ⟨(), [r]⟩

instance : Monad Logged where
  pure a := ⟨a, []⟩
  bind m f :=
    let next := f m.result
    ⟨next.result, m.records ++ next.records⟩

@[simp] theorem result_pure {α : Type} (a : α) : (pure a : Logged α).result = a := rfl

@[simp] theorem records_pure {α : Type} (a : α) : (pure a : Logged α).records = [] := rfl

@[simp] theorem result_bind {α β : Type} (m : Logged α) (f : α → Logged β) :
    (m >>= f).result = (f m.result).result := rfl

@[simp] theorem records_bind {α β : Type} (m : Logged α) (f : α → Logged β) :
    (m >>= f).records = m.records ++ (f m.result).records := rfl

end Logged

end DocumentCommand
