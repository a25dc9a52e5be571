import DocumentCommand.Binary64.Text
import DocumentCommand.Integer
import DocumentCommand.Text.Escaped

/-!
# Why data cannot be read

A text may fail to be well-formed (`Fault`), or well-formed data may not be what its reader wants
(`Mismatch`).  Causes are data; their wording is in `Mismatch.message?` alone.  Where formats word
the same cause differently, a `Wording` says how.
-/

namespace DocumentCommand

/-- Why a text is not well-formed. -/
inductive Fault where
  /-- It ends too early. -/
  | eof
  /-- It goes on in a way that no well-formed text does, or passes a limit. -/
  | malformed
deriving DecidableEq, Repr

namespace Reading

/-- The kind of data that was found, with its value where a message shows it. -/
inductive Found where
  | null
  | bool (b : Bool)
  | integer (n : Int)
  /-- An integer that takes 128 bits. -/
  | wide (n : Int)
  | real (x : Binary64)
  | string (s : String)
  | sequence
  | map
  | bytes
deriving DecidableEq, Repr

/-- What a reader wanted. -/
inductive Wanted where
  | bool
  | string
  | sequence
  | int32
  | unit
  | collation
  | updateOptions
  | size
  | path
  /-- A part of an extended value; messages do not name these. -/
  | extended
deriving DecidableEq, Repr

/-- Why well-formed data is not what its reader wants. -/
inductive Mismatch where
  | type (found : Found) (wanted : Wanted)
  /-- An integer outside the range of the wanted kind. -/
  | range (n : Int) (wanted : Wanted)
  | unknownVariant (name : String) (known : List String)
  | unknownStrength (n : Int)
  | duplicateField (name : String)
  | missingField (name : String)
  | unknownField (name : String) (known : List String)
  /-- A number that no value holds. -/
  | unrepresentable
  /-- An object under a reserved name that does not write a value of its kind. -/
  | extended (name : String)
  /-- An object whose keys do not belong together. -/
  | strayKey (name : String)
  /-- Bytes where text was wanted, and they are none. -/
  | notText
  | notDocument
  | notVariant
deriving DecidableEq, Repr

/-- Why reading failed. -/
inductive Problem where
  | text (f : Fault)
  | data (m : Mismatch)
deriving DecidableEq, Repr

/-- How a format words what it found. -/
structure Wording where
  null : String
  real : Binary64 → List Char

/-- The words of JSON. -/
def Wording.json : Wording :=
  ⟨"null", fun x => x.text .scientific⟩

/-- The words of the formats that have kinds of their own. -/
def Wording.typed : Wording :=
  ⟨"unit value", fun x => x.text .pointed⟩

/-- The words for what was wanted, none where messages do not name it. -/
def Wanted.words? : Wanted → Option String
  | .bool => some "a boolean"
  | .string => some "a string"
  | .sequence => some "a sequence"
  | .int32 => some "i32"
  | .unit => some "unit"
  | .collation => some "struct Collation"
  | .updateOptions => some "struct UpdateOptions"
  | .size => some "usize"
  | .path => some "path string"
  | .extended => none

/-- Text between backticks. -/
def ticked (text : String) : String :=
  "`" ++ text ++ "`"

/-- An integer as messages show it. -/
def integerWords (n : Int) : String :=
  "integer " ++ ticked (String.ofList (Text.Digits.ofInt n))

/-- The words for what was found. -/
def Found.words (w : Wording) : Found → String
  | .null => w.null
  | .bool b => "boolean " ++ ticked (if b then "true" else "false")
  | .integer n => integerWords n
  | .wide n => integerWords n ++ (if Integer.isInt128 n then " as i128" else " as u128")
  | .real x => "floating point " ++ ticked (String.ofList (w.real x))
  | .string s => "string " ++ String.ofList (Text.Escaped.quote s)
  | .sequence => "sequence"
  | .map => "map"
  | .bytes => "byte array"

/-- The alternatives to a name. -/
def alternatives : List String → String
  | [a] => ticked a
  | [a, b] => ticked a ++ " or " ++ ticked b
  | names => "one of " ++ ", ".intercalate (names.map ticked)

/-- The text of a mismatch, none where it has no fixed wording. -/
def Mismatch.message? (w : Wording) : Mismatch → Option String
  | .type found wanted => do
    return "invalid type: " ++ found.words w ++ ", expected " ++ (← wanted.words?)
  | .range n wanted => do
    return "invalid value: " ++ integerWords n ++ ", expected " ++ (← wanted.words?)
  | .unknownVariant name known =>
    some ("unknown variant " ++ ticked name ++ ", expected " ++ alternatives known)
  | .unknownStrength n =>
    some ("unknown collation strength " ++ String.ofList (Text.Digits.ofInt n))
  | .duplicateField name => some ("duplicate field " ++ ticked name)
  | .unknownField name known =>
    some ("unknown field " ++ ticked name ++ ", expected " ++ alternatives known)
  | .missingField _ | .unrepresentable | .extended _ | .strayKey _ | .notText | .notDocument
  | .notVariant => none

end Reading

end DocumentCommand
