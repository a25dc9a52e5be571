import DocumentCommand.Decimal128.Text
import DocumentCommand.Json.Datum
import DocumentCommand.Text.Base64
import DocumentCommand.Value.Basic

/-!
# Values as extended JSON

Kinds that JSON lacks are objects under a name that starts with a dollar sign.  Integers of both
widths are plain numbers, doubles are numbers with a point or an exponent, and bytes without a
further meaning are an array of numbers, so the width of an integer and those bytes cannot be told
from the text.
-/

namespace DocumentCommand

open Json (Datum)

namespace Value

/-- An object of a single member. -/
def tagged (name : String) (body : Datum) : Datum :=
  .object [(name, body)]

/-- The object that stands for an identifier. -/
def objectIdDatum (id : ObjectId) : Datum :=
  tagged "$oid" (.string (String.ofList id.hex))

/-- The array of the values of bytes. -/
def bytesDatum (bytes : List UInt8) : Datum :=
  .array (bytes.map fun b => .integer b.toNat)

mutual

/-- The datum that stands for a value. -/
def toDatum : Value → Datum
  | .null => .null
  | .bool b => .bool b
  | .int32 n => .integer n.toInt
  | .int64 n => .integer n.toInt
  | .double x => Datum.ofDouble x
  | .string s => .string s
  | .array items => .array (itemsDatum items)
  | .document entries => .object (entriesDatum entries)
  | .objectId id => objectIdDatum id
  | .instant t =>
    tagged "$date"
      (tagged "$numberLong" (.string (String.ofList (Text.Digits.ofInt t.milliseconds.toInt))))
  | .binary subtype bytes =>
    if subtype = genericSubtype then bytesDatum bytes
    else tagged "$binary" (.object [
      ("base64", .string (String.ofList (Text.Base64.encode bytes))),
      ("subType", .string (String.ofList (Text.Hex.ofByte subtype)))])
  | .regex pattern options =>
    tagged "$regularExpression"
      (.object [("pattern", .string pattern), ("options", .string options)])
  | .timestamp time increment =>
    tagged "$timestamp" (.object [("t", .integer time.toNat), ("i", .integer increment.toNat)])
  | .decimal d => tagged "$numberDecimal" (.string (String.ofList d.text))
  | .symbol s => tagged "$symbol" (.string s)
  | .code source => tagged "$code" (.string source)
  | .codeWithScope source scope =>
    .object [("$code", .string source), ("$scope", .object (entriesDatum scope))]
  | .pointer collection id =>
    tagged "$dbPointer" (.object [("$ref", .string collection), ("$id", objectIdDatum id)])
  | .undefined => tagged "$undefined" (.bool true)
  | .minKey => tagged "$minKey" (.integer 1)
  | .maxKey => tagged "$maxKey" (.integer 1)

/-- The data that stand for the members of an array. -/
def itemsDatum : List Value → List Datum
  | [] => []
  | v :: rest => toDatum v :: itemsDatum rest

/-- The members that stand for the fields of a document. -/
def entriesDatum : List (String × Value) → List (String × Datum)
  | [] => []
  | (name, v) :: rest => (name, toDatum v) :: entriesDatum rest

end

end Value

/-- The object that stands for a document. -/
def Document.toDatum (d : Document) : Datum :=
  .object (Value.entriesDatum d)

end DocumentCommand
