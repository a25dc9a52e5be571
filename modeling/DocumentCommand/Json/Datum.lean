import DocumentCommand.Binary64.Text
import DocumentCommand.Text.Hex

/-!
# JSON data and its compact text

What is written as JSON is first a `Datum`, which knows only the six kinds of JSON and keeps the
members of objects in order; the text of a datum is compact.  Strings escape the quotation mark, the
backslash and the characters below U+0020, and nothing else.
-/

namespace DocumentCommand.Json

/-- What a JSON text says. -/
inductive Datum where
  | null
  | bool (b : Bool)
  | integer (n : Int)
  /-- A number written with a point or an exponent. -/
  | real (x : Binary64)
  | string (s : String)
  | array (items : List Datum)
  | object (members : List (String × Datum))
deriving Repr, Inhabited

namespace Datum

/-- The escape of a character within a string, and the character itself where it needs none. -/
def escaped (c : Char) : List Char :=
  if c = '"' then ['\\', '"']
  else if c = '\\' then ['\\', '\\']
  else if c = '\x08' then ['\\', 'b']
  else if c = '\x0c' then ['\\', 'f']
  else if c = '\n' then ['\\', 'n']
  else if c = '\r' then ['\\', 'r']
  else if c = '\t' then ['\\', 't']
  else if c.toNat < 0x20 then
    ['\\', 'u', '0', '0', Text.Hex.digit (c.toNat / 16), Text.Hex.digit c.toNat]
  else [c]

/-- A string between quotation marks. -/
def stringText (s : String) : List Char :=
  '"' :: s.toList.flatMap escaped ++ ['"']

/-- A double that is neither an infinity nor a NaN; those have no JSON text and are null. -/
def ofDouble (x : Binary64) : Datum :=
  if x.isFinite then .real x else .null

mutual

/-- The compact text of a datum. -/
def text : Datum → List Char
  | .null => "null".toList
  | .bool true => "true".toList
  | .bool false => "false".toList
  | .integer n => Text.Digits.ofInt n
  | .real x => x.text .scientific
  | .string s => stringText s
  | .array [] => ['[', ']']
  | .array (item :: rest) => '[' :: (text item ++ itemsText rest)
  | .object [] => ['\x7b', '\x7d']
  | .object ((name, item) :: rest) =>
    '\x7b' :: (stringText name ++ ':' :: (text item ++ membersText rest))

/-- The text from behind an element of an array to its end. -/
def itemsText : List Datum → List Char
  | [] => [']']
  | item :: rest => ',' :: (text item ++ itemsText rest)

/-- The text from behind a member of an object to its end. -/
def membersText : List (String × Datum) → List Char
  | [] => ['\x7d']
  | (name, item) :: rest => ',' :: (stringText name ++ ':' :: (text item ++ membersText rest))

end

mutual

/-- How many levels of arrays and objects the text nests. -/
def depth : Datum → Nat
  | .array items => itemsDepth items + 1
  | .object members => membersDepth members + 1
  | _ => 0

/-- The greatest depth among the elements of an array. -/
def itemsDepth : List Datum → Nat
  | [] => 0
  | item :: rest => max (depth item) (itemsDepth rest)

/-- The greatest depth among the members of an object. -/
def membersDepth : List (String × Datum) → Nat
  | [] => 0
  | (_, item) :: rest => max (depth item) (membersDepth rest)

end

end Datum

end DocumentCommand.Json
