import DocumentCommand.Command.Update
import DocumentCommand.Error
import DocumentCommand.Search.Stage

/-!
# Dispatching commands

An executor ships a finished command to a database and answers with the server's reply or an
error.  It may keep state.  Dispatching a command notes it in the log, encodes it, runs the
executor once and returns what the executor said, whatever it is.

A run leaves a trace of events, so that the order of log records and executed commands can be seen.
-/

namespace DocumentCommand.Command

/-- What a reply is. -/
abbrev Reply := Except Error Document

/-- Runs a command on a database; the state is what the executor remembers. -/
abbrev Executor (σ : Type) := (database : String) → (command : Document) → σ → Reply × σ

/-- What happens during a run. -/
inductive Event where
  | logged (r : LogRecord)
  | executed (database : String) (command : Document)
deriving Repr

/-- The outcome of dispatching a command. -/
structure Dispatched (σ : Type) where
  reply : Reply
  state : σ
  /-- What happened, in order. -/
  events : List Event

/-- A command for a database. -/
inductive Request where
  | update (database : String) (command : Update)
  | search (database collection : String) (stage : Document)
deriving Repr

namespace Request

/-- The database that the command is for. -/
def database : Request → String
  | .update db _ => db
  | .search db _ _ => db

/-- The note that a command is about to be sent. -/
def announcement : Request → LogRecord
  | .update db u =>
    ⟨.debug, commandTarget,
      "update: db=" ++ db ++ ", collection=" ++ u.collection ++ ", multi="
        ++ String.ofList (Text.ofBool u.multi) ++ ", options="
        ++ String.ofList u.options.display⟩
  | .search db collection stage =>
    ⟨.debug, commandTarget,
      "search: db=" ++ db ++ ", collection=" ++ collection ++ ", stage="
        ++ String.ofList stage.display⟩

/-- Encodes the command.  A search stage becomes a pipeline of its own. -/
def encode : Request → Logged Document
  | .update _ u => u.toDocument
  | .search _ collection stage =>
    return [("aggregate", .string collection), ("pipeline", Value.documents [stage]),
      ("cursor", .document [])]

/-- Announces the command, encodes it and runs the executor. -/
def dispatch {σ : Type} (executor : Executor σ) (r : Request) (state : σ) : Dispatched σ :=
  let encoded := do
    Logged.log r.announcement
    r.encode
  let (reply, state) := executor r.database encoded.result state
  ⟨reply, state, encoded.records.map .logged ++ [.executed r.database encoded.result]⟩

end Request

/-- Dispatches commands one after another; the outcome of each, and the last state. -/
def dispatchAll {σ : Type} (executor : Executor σ) :
    List Request → σ → List (Dispatched σ) × σ
  | [], state => ([], state)
  | r :: rest, state =>
    let done := r.dispatch executor state
    let (others, last) := dispatchAll executor rest done.state
    (done :: others, last)

end DocumentCommand.Command
