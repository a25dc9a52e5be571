import DocumentCommand.Reading.Problem

/-!
# Errors

Everything that can go wrong between a caller and its server, as one type.  Errors of the library
carry their cause; those that a caller's executor reports carry text.
-/

namespace DocumentCommand

/-- An error of the library or of an executor. -/
inductive Error where
  /-- The file system or the network failed. -/
  | io
  /-- A JSON text cannot be read. -/
  | json (p : Reading.Problem)
  /-- A configuration text cannot be read; the mismatch is known where the text is well-formed. -/
  | toml (mismatch : Option Reading.Mismatch)
  /-- An operator cannot be built. -/
  | construction (text : String)
  /-- An executor refused. -/
  | executor (text : String)
  /-- A configuration makes no sense. -/
  | config (text : String)
deriving DecidableEq, Repr

namespace Error

/-- What the text of an error of this kind starts with. -/
def intro : Error → String
  | .io => "I/O error: "
  | .json _ => "Serde JSON: "
  | .toml _ => "TOML: "
  | .construction _ => "Construction error: "
  | .executor _ => "Executor error: "
  | .config _ => "Config error: "

/-- The text of an error, none where the file system or a parser words it. -/
def display? (e : Error) : Option String :=
  match e with
  | .construction text | .executor text | .config text => some (e.intro ++ text)
  | .json (.data m) => (m.message? .json).map (e.intro ++ ·)
  | _ => none

end Error

end DocumentCommand
