import DocumentCommand.Binary64.Basic
import DocumentCommand.Decimal128.Basic
import DocumentCommand.Instant.Basic
import DocumentCommand.Text.Hex

/-!
# Values and documents

The data that commands are made of: scalars of several kinds, arrays, and documents, which are
fields in order.  A document is a list of entries; documents are built with `insert`, which keeps
the place of a name that is already there, so the names in a built document differ
(`Value.WellFormed`).

Two values are equal as data when they agree in everything, the order of fields and the bits of
doubles included.  The looser comparison of the domain is `Value.same`.
-/

namespace DocumentCommand

/-- Twelve bytes that identify a document. -/
structure ObjectId where
  bytes : List UInt8
  size_eq : bytes.length = 12
deriving DecidableEq, Repr

namespace ObjectId

/-- The identifier of the given bytes, none unless there are twelve. -/
def ofBytes? (bytes : List UInt8) : Option ObjectId :=
  if h : bytes.length = 12 then some ⟨bytes, h⟩ else none

/-- Twenty-four lower-case digits. -/
def hex (id : ObjectId) : List Char :=
  Text.Hex.encode id.bytes

/-- The identifier that twenty-four digits of either case write. -/
def ofHex? (digits : List Char) : Option ObjectId :=
  (Text.Hex.decode digits).bind ofBytes?

instance : Inhabited ObjectId := ⟨⟨List.replicate 12 0, rfl⟩⟩

end ObjectId

/-- A value of a document. -/
inductive Value where
  | null
  | bool (b : Bool)
  | int32 (n : Int32)
  | int64 (n : Int64)
  | double (x : Binary64)
  | string (s : String)
  | array (items : List Value)
  | document (entries : List (String × Value))
  | objectId (id : ObjectId)
  | instant (t : Instant)
  | binary (subtype : UInt8) (bytes : List UInt8)
  | regex (pattern options : String)
  | timestamp (time increment : UInt32)
  | decimal (d : Decimal128)
  | symbol (s : String)
  | code (source : String)
  | codeWithScope (source : String) (scope : List (String × Value))
  | pointer (collection : String) (id : ObjectId)
  | undefined
  | minKey
  | maxKey
deriving Repr, Inhabited

/-- Named fields in order. -/
abbrev Document := List (String × Value)

namespace Document

/-- The value of a field. -/
def get? (d : Document) (name : String) : Option Value :=
  List.lookup name d

/-- Sets a field: in its place where the document has it, at the end where it has not. -/
def insert : Document → String → Value → Document
  | [], name, value => [(name, value)]
  | (k, v) :: rest, name, value =>
    if k = name then (k, value) :: rest else (k, v) :: insert rest name value

/-- The fields inserted one after another. -/
def ofEntries (entries : List (String × Value)) : Document :=
  entries.foldl (fun d e => d.insert e.1 e.2) []

/-- The names of the fields in order. -/
def names (d : Document) : List String :=
  d.map Prod.fst

/-- A document of a single field. -/
def single (name : String) (value : Value) : Document :=
  [(name, value)]

/-- The field when the value is there, and nothing when it is not. -/
def field (name : String) (value : Option Value) : Document :=
  match value with
  | some v => [(name, v)]
  | none => []

end Document

namespace Value

/-- An array of documents. -/
def documents (ds : List Document) : Value :=
  .array (ds.map .document)

/-- Reserved for identifiers of sixteen bytes. -/
def uuidSubtype : UInt8 := 4

/-- The subtype of bytes without a further meaning. -/
def genericSubtype : UInt8 := 0

mutual

/-- Do the names of every document within the value differ from one another? -/
def WellFormed : Value → Prop
  | .array items => AllWellFormed items
  | .document entries => (Document.names entries).Nodup ∧ EntriesWellFormed entries
  | .codeWithScope _ scope => (Document.names scope).Nodup ∧ EntriesWellFormed scope
  | _ => True

/-- Well-formedness of every member of a list. -/
def AllWellFormed : List Value → Prop
  | [] => True
  | v :: rest => WellFormed v ∧ AllWellFormed rest

/-- Well-formedness of the value of every entry. -/
def EntriesWellFormed : List (String × Value) → Prop
  | [] => True
  | (_, v) :: rest => WellFormed v ∧ EntriesWellFormed rest

end

mutual

/-- Comparison as data of this domain: types have to match, doubles compare as numbers, and the
order of the fields of a document does not matter. -/
def same : Value → Value → Bool
  | .null, .null => true
  | .bool a, .bool b => a == b
  | .int32 a, .int32 b => a == b
  | .int64 a, .int64 b => a == b
  | .double a, .double b => a.same b
  | .string a, .string b => a == b
  | .array as, .array bs => sameItems as bs
  | .document as, .document bs => as.length == bs.length && entriesIn as bs
  | .objectId a, .objectId b => a == b
  | .instant a, .instant b => a == b
  | .binary s a, .binary t b => s == t && a == b
  | .regex p a, .regex q b => p == q && a == b
  | .timestamp t a, .timestamp u b => t == u && a == b
  | .decimal a, .decimal b => a == b
  | .symbol a, .symbol b => a == b
  | .code a, .code b => a == b
  | .codeWithScope a s, .codeWithScope b t => a == b && (s.length == t.length && entriesIn s t)
  | .pointer c a, .pointer d b => c == d && a == b
  | .undefined, .undefined => true
  | .minKey, .minKey => true
  | .maxKey, .maxKey => true
  | _, _ => false

/-- Comparison of two lists member by member. -/
def sameItems : List Value → List Value → Bool
  | [], [] => true
  | a :: as, b :: bs => same a b && sameItems as bs
  | _, _ => false

/-- Does the second document hold the same value under the name of every entry of the first? -/
def entriesIn : List (String × Value) → List (String × Value) → Bool
  | [], _ => true
  | (name, a) :: rest, others =>
    (match List.lookup name others with
      | some b => same a b
      | none => false) && entriesIn rest others

end

end Value

/-- Comparison of documents without regard to the order of fields. -/
def Document.same (a b : Document) : Bool :=
  a.length == b.length && Value.entriesIn a b

/-- Comparison of lists of documents, in order. -/
def Document.sameAll (as bs : List Document) : Bool :=
  as.length == bs.length && (as.zip bs).all fun p => p.1.same p.2

end DocumentCommand
