import DocumentCommand.Reading.Extended

/-!
# Reading from values

Documents are a format like any other: the records of the domain are read from them by the same
rules as from text.  Typed values keep their types.  A value of a kind that JSON lacks looks like
an object under its reserved name to whoever wants something else, and bytes without a further
meaning pass for text where they are text.

Reading a value as a value is no copy: objects under reserved names become what they write, the
options of regular expressions are put in order, and no instant comes out later than the last one
whose year has four digits.
-/

namespace DocumentCommand.Value

open Reading

/-- The reserved name of a value of a kind that JSON lacks. -/
def marker? : Value → Option Marker
  | .objectId _ => some (.typed .objectId)
  | .instant _ => some (.typed .instant)
  | .binary subtype _ => if subtype = genericSubtype then none else some (.typed .binary)
  | .regex _ _ => some (.typed .regex)
  | .timestamp _ _ => some (.typed .timestamp)
  | .decimal _ => some (.typed .decimal)
  | .symbol _ => some (.typed .symbol)
  | .code _ | .codeWithScope _ _ => some .code
  | .pointer _ _ => some (.typed .pointer)
  | .undefined => some (.typed .undefined)
  | .minKey => some (.typed .minKey)
  | .maxKey => some (.typed .maxKey)
  | _ => none

/-- What a reader that wants something else finds. -/
def found : Value → Found
  | .null => .null
  | .bool b => .bool b
  | .int32 n => .integer n.toInt
  | .int64 n => .integer n.toInt
  | .double x => .real x
  | .string s => .string s
  | .array _ => .sequence
  | .binary subtype _ => if subtype = genericSubtype then .bytes else .map
  | _ => .map

/-- The mismatch of a reader that wants something else. -/
def refuse {α : Type} (wanted : Wanted) (v : Value) : Except Problem α :=
  .error (.data (.type v.found wanted))

/-- The text that bytes are, if they are text. -/
def textOfBytes? (bytes : List UInt8) : Option String :=
  String.fromUTF8? ⟨bytes.toArray⟩

/-- The text that a value passes for. -/
def asText? : Value → Option String
  | .string s => some s
  | .binary subtype bytes => if subtype = genericSubtype then textOfBytes? bytes else none
  | _ => none

/-- The integer of either width that a value is. -/
def asInteger? : Value → Option Int
  | .int32 n => some n.toInt
  | .int64 n => some n.toInt
  | _ => none

/-- Is it null? -/
def isNull : Value → Bool
  | .null => true
  | _ => false

/-- A truth value. -/
def readBool : Value → Except Problem Bool
  | .bool b => .ok b
  | v => refuse .bool v

/-- A string. -/
def readString (v : Value) : Except Problem String :=
  match v.asText? with
  | some s => .ok s
  | none => if v.found = .bytes then .error (.data .notText) else refuse .string v

/-- An integer of 32 bits, of whichever width the value is. -/
def readInt32 (v : Value) : Except Problem Int32 :=
  match v.asInteger? with
  | some n =>
    match Integer.int32? n with
    | some m => .ok m
    | none => .error (.data (.range n .int32))
  | none => refuse .int32 v

/-- A natural number below a bound, of whichever width the value is. -/
def readNatural (bound : Nat) (v : Value) : Except Problem Nat :=
  match v.asInteger? with
  | some n => if 0 ≤ n ∧ n < bound then .ok n.toNat else .error (.data (.range n .extended))
  | none => refuse .extended v

/-- Bytes without a further meaning, those of a text, or numbers that are bytes. -/
def readBytes : Value → Except Problem (List UInt8)
  | .string s => .ok (s.toList.flatMap String.utf8EncodeChar)
  | .array items => do
    let numbers ← items.mapM (readNatural UInt8.size)
    return numbers.map UInt8.ofNat
  | .binary subtype bytes =>
    if subtype = genericSubtype then .ok bytes else refuse .extended (.binary subtype bytes)
  | v => refuse .extended v

/-- A sequence. -/
def readSequence : Value → Except Problem (Run Value)
  | .array items => .ok ⟨items, .open⟩
  | v => refuse .sequence v

/-- The fields of an object under the reserved name of a typed value.  Only the digits of an
identifier are ever asked for. -/
def taggedFields (m : Marker) : Value → Document
  | .objectId id => [(m.name, .string (String.ofList id.hex))]
  | _ => [(m.name, .null)]

/-- A record: a document holds its fields by name, an array by position, and typed values are
objects under their reserved name. -/
def readRecord (wanted : Wanted) (v : Value) : Except Problem (Record Value) :=
  let named (d : Document) : Record Value := .named ⟨d.map fun e => (.ok e.1, e.2), .open⟩
  match v with
  | .document entries => .ok (named entries)
  | .array items => .ok (.positional ⟨items, .open⟩)
  | v => match v.marker? with
    | some m => .ok (named (taggedFields m v))
    | none => refuse wanted v

/-- The digits of an identifier, or its twelve bytes. -/
def readObjectId : Value → Except Problem ObjectId
  | .string s => orExtended (.typed .objectId) (ObjectId.ofHex? s.toList)
  | .binary subtype bytes =>
    orExtended (.typed .objectId)
      (if subtype = genericSubtype then ObjectId.ofBytes? bytes else none)
  | v => refuse .extended v

/-- An instant: a timestamp, a count of milliseconds, or the digits of such a count in an object or
an array of their own. -/
def readInstant (v : Value) : Except Problem Instant :=
  let digits (v : Value) : Option Instant :=
    (v.asText?.bind int64OfText?).map Instant.mk
  orExtended (.typed .instant) <|
    match v with
    | .int32 n => Instant.ofMilliseconds? n.toInt
    | .int64 n => some ⟨n⟩
    | .array [item] => digits item
    | .document [(name, item)] => if name = (Marker.typed .int64).name then digits item else none
    | v => v.asText?.bind fun s => Instant.readRfc3339? s.toList

/-- A name among those that are known. -/
def knownName (known : List String) (name : String) : Except Problem String :=
  if known.contains name then .ok name else .error (.data (.unknownVariant name known))

/-- The answers of values, apart from variants. -/
def leafSource : Source Value where
  isNull v := .ok v.isNull
  bool := readBool
  string := readString
  int32 := readInt32
  natural := readNatural
  bytes := readBytes
  variant _ _ := .error (.data .notVariant)
  sequence := readSequence
  record := readRecord
  objectId := readObjectId
  instant := readInstant
  skip _ := .ok ()

mutual

/-- Reads a value as a value. -/
def read : Value → Except Problem Value
  | .array items => do return .array (← readItems items)
  | .document entries => readEntries [] entries
  | .regex pattern options =>
    orExtended (.typed .regex) (regex? pattern options)
  | .instant t => .ok (.instant t.withinYears)
  | .codeWithScope source scope => do
    match ← readEntries [] scope with
    | .document d => return .codeWithScope source d
    | _ => throw (.data .notDocument)
  | v => .ok v

/-- Reads the members of an array as values. -/
def readItems : List Value → Except Problem (List Value)
  | [] => .ok []
  | item :: rest => do
    let v ← read item
    let vs ← readItems rest
    return v :: vs

/-- Reads a value as a document. -/
def readDocument : Value → Except Problem Document
  | .document entries => do
    match ← readEntries [] entries with
    | .document d => return d
    | _ => throw (.data .notDocument)
  | .array items => do
    let _ ← readItems items
    throw (.data .notDocument)
  | .codeWithScope _ scope => do
    let _ ← readEntries [] scope
    throw (.data .notDocument)
  | _ => .error (.data .notDocument)

/-- Reads the entries of a document, given the fields that were read before.  The first reserved
name decides, and what follows it is not looked at. -/
def readEntries (fields : Document) : List (String × Value) → Except Problem Value
  | [] => .ok (.document fields)
  | (key, value) :: rest =>
    match Marker.ofKey? key with
    | none => do
      let v ← read value
      readEntries (Document.insert fields key v) rest
    | some (.typed tag) => readTagged leafSource tag value
    | some .code => do
      let source ← readString value
      match rest with
      | [] => return .code source
      | (second, value) :: _ =>
        if second = Marker.scope.name then
          let scope ← readDocument value
          return .codeWithScope source scope
        else throw (.data (.strayKey second))
    | some .scope => do
      let scope ← readDocument value
      match rest with
      | [] => throw (.data (.missingField Marker.code.name))
      | (second, value) :: _ =>
        if second = Marker.code.name then
          let source ← readString value
          return .codeWithScope source scope
        else throw (.data (.strayKey second))

end

/-- One of a list of names: the name as a string, or a document of one field with that name and any
value. -/
def readVariant (known : List String) : Value → Except Problem String
  | .string s => knownName known s
  | .document [(name, value)] => do
    let name ← knownName known name
    let _ ← value.read
    return name
  | _ => .error (.data .notVariant)

/-- The answers of values. -/
def source : Source Value :=
  { leafSource with variant := readVariant }

end DocumentCommand.Value
