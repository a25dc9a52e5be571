import DocumentCommand.Error
import DocumentCommand.Integer
import DocumentCommand.Text.Digits
import DocumentCommand.Toml.Document

/-!
# Configuration

Where logs go, how much is logged and how many old files are kept.  Each setting comes from the
environment where that has it, else from a file, else it is unset.
-/

namespace DocumentCommand

open Reading (Found Mismatch)

/-- The settings of a process. -/
structure Config where
  /-- The directory of the log files. -/
  logDir : Option String := none
  /-- The name of the least severity that is logged. -/
  logLevel : Option String := none
  /-- How many old log files are kept. -/
  logRetention : Option UInt64 := none
deriving DecidableEq, Repr, Inhabited

namespace Config

/-- The name of the file that is looked for where none is given. -/
def defaultFile : String := "nexus_model.toml"

/-- The settings. -/
inductive Field where
  | logDir | logLevel | logRetention
deriving DecidableEq, Repr

namespace Field

/-- The settings in order. -/
def all : List Field := [.logDir, .logLevel, .logRetention]

/-- The key of a setting in files. -/
def key : Field → String
  | .logDir => "log_dir"
  | .logLevel => "log_level"
  | .logRetention => "log_retention"

/-- The environment variable of a setting. -/
def envName : Field → String
  | .logDir => "NEXUS_MODEL_LOG_DIR"
  | .logLevel => "NEXUS_MODEL_LOG_LEVEL"
  | .logRetention => "NEXUS_MODEL_LOG_RETENTION"

end Field

/-- A value that is to be a string. -/
def readString (wanted : Reading.Wanted) : Toml.Scalar → Except Mismatch String
  | .found (.string s) => .ok s
  | .found f => .error (.type f wanted)
  | .unrepresentable => .error .unrepresentable

/-- A value that is to be a count of 64 bits. -/
def readCount : Toml.Scalar → Except Mismatch UInt64
  | .found (.integer n) =>
    match Integer.uint64? n with
    | some count => .ok count
    | none => .error (.range n .size)
  | .found f => .error (.type f .size)
  | .unrepresentable => .error .unrepresentable

/-- The configuration with a setting from a file. -/
def setFromFile (c : Config) (f : Field) (v : Toml.Scalar) : Except Mismatch Config :=
  match f with
  | .logDir => do return { c with logDir := some (← readString .path v) }
  | .logLevel => do return { c with logLevel := some (← readString .string v) }
  | .logRetention => do return { c with logRetention := some (← readCount v) }

/-- The configuration with the setting of a key from a file. -/
def readEntry (c : Config) (entry : String × Toml.Item) : Except Mismatch Config :=
  match Field.all.find? fun f => f.key = entry.1 with
  | some f => c.setFromFile f entry.2.scalar
  | none => .error (.unknownField entry.1 (Field.all.map Field.key))

/-- The configuration that a table writes.  Keys are looked at in their order as strings. -/
def ofTable (t : Toml.Table) : Except Mismatch Config :=
  (t.mergeSort fun a b => a.1 ≤ b.1).foldlM readEntry {}

/-- The configuration that a text writes. -/
def ofToml (text : List Char) : Except Error Config :=
  match Toml.Table.ofText? text with
  | none => .error (.toml none)
  | some table =>
    match ofTable table with
    | .ok c => .ok c
    | .error m => .error (.toml (some m))

/-- A count of 64 bits from its digits. -/
def countOfText? (text : String) : Option UInt64 :=
  (Text.Digits.readUnsigned? text.toList).bind fun n => Integer.uint64? n

/-- The configuration with what the environment has in place of its own settings.  A count that is
no count is passed over. -/
def applyEnv (c : Config) (lookup : String → Option String) : Config where
  logDir := (lookup Field.logDir.envName).or c.logDir
  logLevel := (lookup Field.logLevel.envName).or c.logLevel
  logRetention := ((lookup Field.logRetention.envName).bind countOfText?).or c.logRetention

/-- What stands where a configuration file is looked for. -/
inductive File where
  | absent
  /-- Something that cannot be read as text. -/
  | unreadable
  | text (content : List Char)
deriving Repr

/-- A file of the given bytes. -/
def File.ofBytes (bytes : List UInt8) : File :=
  match String.fromUTF8? ⟨bytes.toArray⟩ with
  | some s => .text s.toList
  | none => .unreadable

/-- The configuration of a file that has to be there. -/
def File.read : File → Except Error Config
  | .absent | .unreadable => .error .io
  | .text content => ofToml content

/-- Loads a configuration: from the file that was asked for, else from the default file if it is
there; then from the environment. -/
def load (explicit : Option File) (default : File) (lookup : String → Option String) :
    Except Error Config := do
  let c ← match explicit, default with
    | some file, _ => file.read
    | none, .absent => pure {}
    | none, file => file.read
  return c.applyEnv lookup

end Config

end DocumentCommand
