import DocumentCommand.Binary64.Text
import DocumentCommand.Decimal128.Text
import DocumentCommand.Instant.Rfc3339
import DocumentCommand.Reading.Source
import DocumentCommand.Text.Base64

/-!
# Extended values

An object whose key is one of a few reserved names writes a value of a kind that JSON lacks.  This
module knows the names (`Marker`) and what has to stand under each; how the pieces themselves are
read is up to the source, so all formats share one set of rules.
-/

namespace DocumentCommand

/-- Reserved names whose object writes a value by itself. -/
inductive Tag where
  | objectId | symbol | int32 | int64 | double | decimal | decimalBytes | binary | uuid
  | timestamp | regex | pointer | instant | minKey | maxKey | undefined
deriving DecidableEq, Repr

/-- The reserved names. -/
inductive Marker where
  | typed (tag : Tag)
  | code
  | scope
deriving DecidableEq, Repr

namespace Marker

/-- All reserved names. -/
def all : List Marker := [
  .typed .objectId, .typed .symbol, .typed .int32, .typed .int64, .typed .double, .typed .decimal,
  .typed .decimalBytes, .typed .binary, .typed .uuid, .code, .scope, .typed .timestamp,
  .typed .regex, .typed .pointer, .typed .instant, .typed .minKey, .typed .maxKey,
  .typed .undefined]

/-- The name itself. -/
def name : Marker → String
  | .code => "$code"
  | .scope => "$scope"
  | .typed .objectId => "$oid"
  | .typed .symbol => "$symbol"
  | .typed .int32 => "$numberInt"
  | .typed .int64 => "$numberLong"
  | .typed .double => "$numberDouble"
  | .typed .decimal => "$numberDecimal"
  | .typed .decimalBytes => "$numberDecimalBytes"
  | .typed .binary => "$binary"
  | .typed .uuid => "$uuid"
  | .typed .timestamp => "$timestamp"
  | .typed .regex => "$regularExpression"
  | .typed .pointer => "$dbPointer"
  | .typed .instant => "$date"
  | .typed .minKey => "$minKey"
  | .typed .maxKey => "$maxKey"
  | .typed .undefined => "$undefined"

/-- The reserved name that a key is, if it is one. -/
def ofKey? (key : String) : Option Marker :=
  all.find? fun m => m.name = key

end Marker

namespace Reading

/-- The result, or the mismatch of the reserved name under which there is none. -/
def orExtended {α : Type} (m : Marker) (result : Option α) : Except Problem α :=
  match result with
  | some x => .ok x
  | none => .error (.data (.extended m.name))

/-- Options of a regular expression are kept in the order of their characters. -/
def sortedOptions (options : String) : String :=
  String.ofList (options.toList.mergeSort fun a b => a.toNat ≤ b.toNat)

/-- Does the text hold a NUL?  No regular expression may. -/
def hasNul (s : String) : Bool :=
  s.toList.any fun c => c.toNat = 0

/-- A regular expression of the domain, none where it holds a NUL. -/
def regex? (pattern options : String) : Option Value :=
  if hasNul pattern || hasNul options then none else some (.regex pattern (sortedOptions options))

/-- An integer of 32 bits from its digits. -/
def int32OfText? (text : String) : Option Int32 :=
  (Text.Digits.readSigned? text.toList).bind Integer.int32?

/-- An integer of 64 bits from its digits. -/
def int64OfText? (text : String) : Option Int64 :=
  (Text.Digits.readSigned? text.toList).bind Integer.int64?

/-- Bytes from Base64 text, and their subtype from exactly two digits. -/
def binary? (base64 subtype : String) : Option Value := do
  let bytes ← Text.Base64.decode base64.toList
  match ← Text.Hex.decode subtype.toList with
  | [s] => some (.binary s bytes)
  | _ => none

/-- The digits of an identifier of sixteen bytes: bare, or in groups of 8, 4, 4, 4 and 12, and those
in braces or behind a name space. -/
def uuidDigits? (text : List Char) : Option (List Char) :=
  let grouped (t : List Char) : Option (List Char) :=
    if t.length = 36 ∧ [8, 13, 18, 23].all (fun i => t[i]? = some '-') then
      some (t.take 8 ++ (t.drop 9).take 4 ++ (t.drop 14).take 4 ++ (t.drop 19).take 4 ++ t.drop 24)
    else none
  if text.length = 32 then some text
  else if text.length = 38 ∧ text.head? = some '\x7b' ∧ text.getLast? = some '\x7d' then
    grouped ((text.drop 1).take 36)
  else if text.take 9 = "urn:uuid:".toList then grouped (text.drop 9)
  else grouped text

/-- An identifier of sixteen bytes from its text. -/
def uuid? (text : String) : Option Value := do
  let bytes ← Text.Hex.decode (← uuidDigits? text.toList)
  return .binary Value.uuidSubtype bytes

section

variable {ν : Type} (S : Source ν)

/-- The members of an object that holds exactly the given fields. -/
def closedRecord {φ σ : Type} [DecidableEq φ] (F : Fields φ) (read : φ → ν → Except Problem σ)
    (v : ν) : Except Problem (List σ) := do
  let unknown (name : String) (_ : ν) : Except Problem Unit := .error (.data (.strayKey name))
  F.readRecord read unknown (← S.record .extended v)

/-- The field among those that were read. -/
def required {σ α : Type} (name : String) (pick : σ → Option α) (read : List σ) :
    Except Problem α :=
  match read.findSome? pick with
  | some x => .ok x
  | none => .error (.data (.missingField name))

/-- An object of exactly two members. -/
def pair {α β : Type} (first : String) (readFirst : ν → Except Problem α) (second : String)
    (readSecond : ν → Except Problem β) (v : ν) : Except Problem (α × β) := do
  let fields : Fields Bool := ⟨[false, true], fun isSecond => if isSecond then second else first⟩
  let read (isSecond : Bool) (v : ν) : Except Problem (α ⊕ β) :=
    if isSecond then .inr <$> readSecond v else .inl <$> readFirst v
  let members ← closedRecord S fields read v
  let a ← required first Sum.getLeft? members
  let b ← required second Sum.getRight? members
  return (a, b)

/-- An object of exactly one member. -/
def only {α : Type} (name : String) (readMember : ν → Except Problem α) (v : ν) :
    Except Problem α := do
  let fields : Fields Unit := ⟨[()], fun _ => name⟩
  let members ← closedRecord S fields (fun _ => readMember) v
  required name some members

/-- A key that stands below or above all others. -/
def extreme (tag : Tag) (value : Value) (v : ν) : Except Problem Value := do
  if (← S.natural 256 v) = 1 then return value else orExtended (.typed tag) none

/-- The value that stands under a reserved name. -/
def readTagged (tag : Tag) (v : ν) : Except Problem Value :=
  let checked {α : Type} (result : Option α) : Except Problem α := orExtended (.typed tag) result
  match tag with
  | .objectId => do return .objectId (← S.objectId v)
  | .symbol => do return .symbol (← S.string v)
  | .int32 => do return .int32 (← checked (int32OfText? (← S.string v)))
  | .int64 => do return .int64 (← checked (int64OfText? (← S.string v)))
  | .double => do return .double (← checked (Binary64.read? (← S.string v).toList))
  | .decimal => do return .decimal (← checked (Decimal128.read? (← S.string v).toList))
  | .decimalBytes => do return .decimal (← checked (Decimal128.ofBytes? (← S.bytes v)))
  | .uuid => do checked (uuid? (← S.string v))
  | .binary => do
    let (base64, subtype) ← pair S "base64" S.string "subType" S.string v
    checked (binary? base64 subtype)
  | .timestamp => do
    let (time, increment) ← pair S "t" (S.natural UInt32.size) "i" (S.natural UInt32.size) v
    return .timestamp (UInt32.ofNat time) (UInt32.ofNat increment)
  | .regex => do
    let (pattern, options) ← pair S "pattern" S.string "options" S.string v
    checked (regex? pattern options)
  | .pointer => do
    let (collection, hex) ← pair S "$ref" S.string "$id" (only S "$oid" S.string) v
    return .pointer collection (← checked (ObjectId.ofHex? hex.toList))
  | .instant => do return .instant (← S.instant v)
  | .minKey => extreme S .minKey .minKey v
  | .maxKey => extreme S .maxKey .maxKey v
  | .undefined => do if ← S.bool v then return .undefined else checked none

end

end Reading

end DocumentCommand
