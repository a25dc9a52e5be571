import DocumentCommand.Reading.Extended

/-!
# Values as they are stored

What options become when they are stored as a document.  Every value keeps its type and content,
with three exceptions: the options of regular expressions are put in order, decimal numbers go
through their text, and a document that is nothing but an object under a reserved name is replaced
by the value that it writes, the inner ones first.
-/

namespace DocumentCommand.Value

open Reading

/-- The string under a name. -/
def stringField? (d : Document) (name : String) : Option String :=
  match Document.get? d name with
  | some (.string s) => some s
  | _ => none

/-- The document under a name. -/
def documentField? (d : Document) (name : String) : Option Document :=
  match Document.get? d name with
  | some (.document e) => some e
  | _ => none

/-- Both parts of a timestamp: 32-bit integers taken as bits, or 64-bit integers in range. -/
def timestamp? (d : Document) : Option Value :=
  match Document.get? d "t", Document.get? d "i" with
  | some (.int32 t), some (.int32 i) => some (.timestamp t.toUInt32 i.toUInt32)
  | some (.int64 t), some (.int64 i) =>
    (Integer.uint32? t.toInt).bind fun time =>
      (Integer.uint32? i.toInt).map fun increment => .timestamp time increment
  | _, _ => none

/-- The bytes without a further meaning that a value is. -/
def genericBytes? : Value → Option (List UInt8)
  | .binary subtype bytes => if subtype = genericSubtype then some bytes else none
  | _ => none

/-- Bytes and their subtype: as texts where the bytes are one, else as such beside a number. -/
def binaryOfFields? (d : Document) : Option Value :=
  match stringField? d "base64" with
  | some base64 => do binary? base64 (← stringField? d "subType")
  | none => do
    let bytes ← (← Document.get? d "bytes").genericBytes?
    match Document.get? d "subType" with
    | some (.int32 n) =>
      if 0 ≤ n.toInt ∧ n.toInt < UInt8.size then some (.binary (UInt8.ofNat n.toInt.toNat) bytes)
      else none
    | _ => none

/-- Is it the number one? -/
def isOne : Value → Bool
  | .int32 n => n = 1
  | .int64 n => n = 1
  | _ => false

/-- The value that an object of a single member under a reserved name writes. -/
def ofTagged? (tag : Tag) (v : Value) : Option Value :=
  match tag, v with
  | .objectId, .string s => (ObjectId.ofHex? s.toList).map .objectId
  | .symbol, .string s => some (.symbol s)
  | .int32, .string s => (int32OfText? s).map .int32
  | .int64, .string s => (int64OfText? s).map .int64
  | .double, .string s => (Binary64.read? s.toList).map .double
  | .decimal, .string s => (Decimal128.read? s.toList).map .decimal
  | .decimalBytes, v => v.genericBytes?.bind fun bytes =>
    (Decimal128.ofBytes? bytes).map .decimal
  | .binary, .document d => binaryOfFields? d
  | .timestamp, .document d => timestamp? d
  | .regex, .document d => do regex? (← stringField? d "pattern") (← stringField? d "options")
  | .pointer, .document d => do
    let collection ← stringField? d "$ref"
    match Document.get? d "$id" with
    | some (.objectId id) => some (.pointer collection id)
    | _ => none
  | .instant, .int64 n => some (.instant ⟨n⟩)
  | .instant, .string s => (Instant.readRfc3339? s.toList).map .instant
  | .minKey, v => if isOne v then some .minKey else none
  | .maxKey, v => if isOne v then some .maxKey else none
  | .undefined, .bool true => some .undefined
  | _, _ => none

/-- The value that a document writes, the document itself where it writes none. -/
def ofDocument (d : Document) : Value :=
  let written := match d with
    | [(name, v)] => match Marker.ofKey? name, v with
      | some (.typed tag), v => ofTagged? tag v
      | some .code, .string s => some (.code s)
      | _, _ => none
    | [_, _] => do
      let source ← stringField? d Marker.code.name
      let scope ← documentField? d Marker.scope.name
      return .codeWithScope source scope
    | _ => none
  written.getD (.document d)

/-- A regular expression with its options in order.  One that holds a NUL cannot be stored as such
and stays an object. -/
def storedRegex (pattern options : String) : Value :=
  (regex? pattern options).getD
    (.document [((Marker.typed .regex).name,
      .document [("pattern", .string pattern), ("options", .string options)])])

mutual

/-- The value as it is stored. -/
def stored : Value → Value
  | .array items => .array (storedItems items)
  | .document entries => ofDocument (storedEntries entries)
  | .regex pattern options => storedRegex pattern options
  | .decimal d => .decimal d.throughText
  | .codeWithScope source scope =>
    ofDocument [(Marker.code.name, .string source),
      (Marker.scope.name, ofDocument (storedEntries scope))]
  | v => v

/-- The members of an array as they are stored. -/
def storedItems : List Value → List Value
  | [] => []
  | v :: rest => stored v :: storedItems rest

/-- The fields of a document as they are stored. -/
def storedEntries : List (String × Value) → List (String × Value)
  | [] => []
  | (name, v) :: rest => (name, stored v) :: storedEntries rest

end

/-- A document as it is stored where a value may stand. -/
def storedDocument (d : Document) : Value :=
  (Value.document d).stored

end DocumentCommand.Value
