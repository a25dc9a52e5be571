import DocumentCommand.Binary64.Text
import DocumentCommand.Decimal128.Text
import DocumentCommand.Instant.Basic
import DocumentCommand.Text.Base64
import DocumentCommand.Value.Basic

/-!
# Values as diagnostic text

The form that appears in log records and in the text of options.  It is for people: text is not
escaped, whole numbers of every kind look alike, and a piece of code is shown bare.
-/

namespace DocumentCommand.Text

/-- A truth value. -/
def ofBool (b : Bool) : List Char :=
  (if b then "true" else "false").toList

/-- The text of a part that may be absent; an absent part is `null`. -/
def orNull {α : Type} (text : α → List Char) : Option α → List Char
  | some a => text a
  | none => "null".toList

end DocumentCommand.Text

namespace DocumentCommand.Value

/-- Text between double quotes, as it is. -/
def quotedText (s : String) : List Char :=
  '"' :: s.toList ++ ['"']

/-- The texts one after another with a comma and a blank between them. -/
def commaSeparated : List (List Char) → List Char
  | [] => []
  | [t] => t
  | t :: rest => t ++ ", ".toList ++ commaSeparated rest

/-- The braces of a document around its fields. -/
def bracedText (fields : List (List Char)) : List Char :=
  if fields = [] then "\x7b\x7d".toList
  else "\x7b ".toList ++ commaSeparated fields ++ " \x7d".toList

/-- The constructor form of a typed value: a name and quoted text in parentheses. -/
def wrappedText (name : String) (content : List Char) : List Char :=
  name.toList ++ "(\"".toList ++ content ++ "\")".toList

/-- The subtype of bytes without leading zeros. -/
def subtypeText (subtype : UInt8) : List Char :=
  Text.Hex.ofNat subtype.toNat

mutual

/-- The text of a value. -/
def display : Value → List Char
  | .null => "null".toList
  | .bool b => Text.ofBool b
  | .int32 n => Text.Digits.ofInt n.toInt
  | .int64 n => Text.Digits.ofInt n.toInt
  | .double x => x.text .plain
  | .string s => quotedText s
  | .array items => '[' :: commaSeparated (displayItems items) ++ [']']
  | .document entries => bracedText (displayEntries entries)
  | .objectId id => wrappedText "ObjectId" id.hex
  | .instant t => wrappedText "DateTime" t.text
  | .binary subtype bytes =>
    "Binary(0x".toList ++ subtypeText subtype ++ ", ".toList ++ Text.Base64.encode bytes ++ [')']
  | .regex pattern options => '/' :: pattern.toList ++ '/' :: options.toList
  | .timestamp time increment =>
    "Timestamp(".toList ++ Text.Digits.ofNat time.toNat ++ ", ".toList ++
      Text.Digits.ofNat increment.toNat ++ [')']
  | .decimal d => d.text
  | .symbol s => wrappedText "Symbol" s.toList
  | .code source => source.toList
  | .codeWithScope source _ => source.toList
  | .pointer collection id =>
    "DbPointer(".toList ++ collection.toList ++ ", ".toList ++ id.hex ++ [')']
  | .undefined => "undefined".toList
  | .minKey => "MinKey".toList
  | .maxKey => "MaxKey".toList

/-- The texts of the members of an array. -/
def displayItems : List Value → List (List Char)
  | [] => []
  | v :: rest => display v :: displayItems rest

/-- The texts of the fields of a document. -/
def displayEntries : List (String × Value) → List (List Char)
  | [] => []
  | (name, v) :: rest => (quotedText name ++ ": ".toList ++ display v) :: displayEntries rest

end

end DocumentCommand.Value

/-- The diagnostic text of a document. -/
def DocumentCommand.Document.display (d : Document) : List Char :=
  Value.bracedText (Value.displayEntries d)
