import DocumentCommand.Json.Node
import DocumentCommand.Reading.Extended

/-!
# Reading JSON

A `Cursor` is a node of a text together with the number of levels that may still open within it.
Everything that is read counts levels and asks what numbers and strings mean; what is passed over
(`Node.skip`) is only checked to be JSON.

Values are read by `readValue`.  Whole numbers become the narrowest integer when they carry no
sign and integers of 64 bits when they are negative.  An object ends with the first reserved name
among its keys: what stands under it is the value, members before it are dropped, and none may
follow.
-/

namespace DocumentCommand.Json

open Reading

/-- A node and the number of levels that may open within it. -/
structure Cursor where
  room : Nat
  node : Node

/-- A fault of the text. -/
def fault {α : Type} (f : Fault) : Except Problem α :=
  .error (.text f)

/-- A string as its reader sees it. -/
def textOf (q : Quoted) : Except Problem String :=
  match q.content with
  | .ok s => .ok s
  | .error f => fault f

/-- A number as its reader sees it; numbers too large for a double are no JSON here. -/
def numberOf (n : Numeral) : Except Problem Number :=
  match n.value? with
  | some x => .ok x
  | none => fault .malformed

/-- What a reader of the value meets where it is not whole. -/
def Broken.fault : Broken → Fault
  | .absent f | .null f | .bool f | .number f => f

/-- What a list's reader learns at its end. -/
def Ending.toReading : Ending → Reading.Ending
  | .closed => ⟨.ok (), .ok (), fault .malformed⟩
  | .cut f => ⟨fault f, fault f, fault .malformed⟩
  | .comma f => ⟨fault f, fault .malformed, fault .malformed⟩

/-- The mismatch of a reader that meets the node and wants something else.  Scalars are read before
they are refused; arrays and objects are refused at their first character. -/
def refuse {α : Type} (wanted : Wanted) (node : Node) : Except Problem α := do
  let found ← match node with
    | .null => pure Found.null
    | .bool b => pure (.bool b)
    | .number n => do
      match ← numberOf n with
      | .integer i => pure (.integer i)
      | .real x => pure (.real x)
    | .string q => do pure (.string (← textOf q))
    | .array _ _ => pure .sequence
    | .object _ _ | .nameless _ => pure .map
    | .broken b => fault b.fault
  throw (.data (.type found wanted))

/-- One level down, while there is room. -/
def descend (room : Nat) : Except Problem Nat :=
  match room with
  | 0 => fault .malformed
  | room + 1 => .ok room

mutual

/-- Passes over a value: it has to be JSON, but may be of any depth and its numbers of any size. -/
def Node.skip : Node → Except Problem Unit
  | .null | .bool _ | .number _ => .ok ()
  | .string q => match q.obstacle? with
    | none => .ok ()
    | some f => fault f
  | .array items ending => do
    skipItems items
    ending.toReading.asked
  | .object members ending => do
    skipMembers members
    ending.toReading.asked
  | .nameless _ => fault .malformed
  | .broken (.number _) => fault .malformed
  | .broken b => fault b.fault

/-- Passes over elements. -/
def skipItems : List Node → Except Problem Unit
  | [] => .ok ()
  | item :: rest => do
    item.skip
    skipItems rest

/-- Passes over members. -/
def skipMembers : List (Quoted × Node) → Except Problem Unit
  | [] => .ok ()
  | (name, item) :: rest => do
    match name.obstacle? with
    | none => pure ()
    | some f => fault f
    item.skip
    skipMembers rest

end

mutual

/-- Reads a value through without keeping it. -/
def Node.check (room : Nat) : Node → Except Problem Unit
  | .null | .bool _ => .ok ()
  | .number n => do
    let _ ← numberOf n
  | .string q => do
    let _ ← textOf q
  | .array items ending => do
    let room ← descend room
    checkItems room items
    ending.toReading.asked
  | .object members ending => do
    let room ← descend room
    checkMembers room members
    ending.toReading.asked
  | .nameless _ => fault .malformed
  | .broken b => fault b.fault

/-- Reads elements through. -/
def checkItems (room : Nat) : List Node → Except Problem Unit
  | [] => .ok ()
  | item :: rest => do
    item.check room
    checkItems room rest

/-- Reads members through. -/
def checkMembers (room : Nat) : List (Quoted × Node) → Except Problem Unit
  | [] => .ok ()
  | (name, item) :: rest => do
    let _ ← textOf name
    item.check room
    checkMembers room rest

end

namespace Cursor

/-- Is it null? -/
def isNull (c : Cursor) : Except Problem Bool :=
  match c.node with
  | .null => .ok true
  | .broken (.null f) => fault f
  | _ => .ok false

/-- A truth value. -/
def bool (c : Cursor) : Except Problem Bool :=
  match c.node with
  | .bool b => .ok b
  | node => refuse .bool node

/-- A string. -/
def string (c : Cursor) : Except Problem String :=
  match c.node with
  | .string q => textOf q
  | node => refuse .string node

/-- An integer of 32 bits. -/
def int32 (c : Cursor) : Except Problem Int32 :=
  match c.node with
  | .number n => do
    match ← numberOf n with
    | .integer i =>
      match Integer.int32? i with
      | some n => return n
      | none => throw (.data (.range i .int32))
    | .real x => throw (.data (.type (.real x) .int32))
  | node => refuse .int32 node

/-- A natural number below a bound. -/
def natural (bound : Nat) (c : Cursor) : Except Problem Nat :=
  match c.node with
  | .number n => do
    match ← numberOf n with
    | .integer i =>
      if 0 ≤ i ∧ i < bound then return i.toNat else throw (.data (.range i .extended))
    | .real x => throw (.data (.type (.real x) .extended))
  | node => refuse .extended node

/-- A name among those that are known. -/
def knownName (known : List String) (q : Quoted) : Except Problem String := do
  let name ← textOf q
  if known.contains name then return name else throw (.data (.unknownVariant name known))

/-- One of a list of names: the name as a string, or an object of one member with that name and
null. -/
def variant (known : List String) (c : Cursor) : Except Problem String :=
  match c.node with
  | .string q => knownName known q
  | .object members ending => do
    let _ ← descend c.room
    match members with
    | [] => match ending with
      | .closed => fault .malformed
      | _ => do
        ending.toReading.asked
        fault .malformed
    | (q, node) :: rest => do
      let name ← knownName known q
      match node with
      | .null => ending.toReading.before rest
      | node => refuse .unit node
      return name
  | .nameless first => do
    let _ ← descend c.room
    refuse .extended first
  | .broken (.absent f) => fault f
  | _ => fault .malformed

/-- A sequence. -/
def sequence (c : Cursor) : Except Problem (Run Cursor) :=
  match c.node with
  | .array items ending => do
    let room ← descend c.room
    return ⟨items.map (⟨room, ·⟩), ending.toReading⟩
  | node => refuse .sequence node

/-- Bytes: those of a string, or an array of numbers that are bytes. -/
def bytes (c : Cursor) : Except Problem (List UInt8) :=
  match c.node with
  | .string q => match q.bytes with
    | .ok bytes => .ok bytes
    | .error f => fault f
  | .array items ending => do
    let room ← descend c.room
    let numbers ← items.mapM fun item => natural UInt8.size ⟨room, item⟩
    ending.toReading.asked
    return numbers.map UInt8.ofNat
  | node => refuse .extended node

/-- A record: an object holds its fields by name and an array by position. -/
def record (wanted : Wanted) (c : Cursor) : Except Problem (Record Cursor) :=
  match c.node with
  | .array items ending => do
    let room ← descend c.room
    return .positional ⟨items.map (⟨room, ·⟩), ending.toReading⟩
  | .object members ending => do
    let room ← descend c.room
    return .named ⟨members.map fun m => (textOf m.1, ⟨room, m.2⟩), ending.toReading⟩
  | .nameless _ => fault .malformed
  | node => refuse wanted node

/-- The digits of an identifier.  Brackets count as a level before they are refused. -/
def objectId (c : Cursor) : Except Problem ObjectId :=
  match c.node with
  | .string q => do orExtended (.typed .objectId) (ObjectId.ofHex? (← textOf q).toList)
  | .array _ _ | .object _ _ | .nameless _ => do
    let _ ← descend c.room
    refuse .extended c.node
  | node => refuse .extended node

/-- An instant: a timestamp, a count of milliseconds, or the digits of such a count in an object or
an array of their own.  It is read through before any of it is refused. -/
def instant (c : Cursor) : Except Problem Instant := do
  c.node.check c.room
  let digits (q : Quoted) : Except Problem (Option Instant) := do
    return (int64OfText? (← textOf q)).map Instant.mk
  let result ← match c.node with
    | .string q => do pure (Instant.readRfc3339? (← textOf q).toList)
    | .number n => do
      match ← numberOf n with
      | .integer i => pure (Instant.ofMilliseconds? i)
      | .real _ => pure none
    | .array [.string q] _ => digits q
    | .object [(name, .string q)] _ => do
      if (← textOf name) = (Marker.typed .int64).name then digits q else pure none
    | _ => pure none
  orExtended (.typed .instant) result

/-- The answers of JSON. -/
def source : Source Cursor where
  isNull := isNull
  bool := bool
  string := string
  int32 := int32
  natural := natural
  bytes := bytes
  variant := variant
  sequence := sequence
  record := record
  objectId := objectId
  instant := instant
  skip c := c.node.skip

end Cursor

/-- The value of a number. -/
def valueOfNumber : Number → Except Problem Value
  | .real x => .ok (.double x)
  | .integer n =>
    match (if n < 0 then none else Integer.int32? n), Integer.int64? n with
    | some narrow, _ => .ok (.int32 narrow)
    | none, some wide => .ok (.int64 wide)
    | none, none => .error (.data .unrepresentable)

mutual

/-- The value of a node. -/
def readValue (room : Nat) : Node → Except Problem Value
  | .null => .ok .null
  | .bool b => .ok (.bool b)
  | .number n => do valueOfNumber (← numberOf n)
  | .string q => do return .string (← textOf q)
  | .array items ending => do
    let room ← descend room
    let values ← readItems room items
    ending.toReading.asked
    return .array values
  | .object members ending => do
    let room ← descend room
    readMembers room ending.toReading [] members
  | .nameless _ => fault .malformed
  | .broken b => fault b.fault

/-- The values of elements. -/
def readItems (room : Nat) : List Node → Except Problem (List Value)
  | [] => .ok []
  | item :: rest => do
    let v ← readValue room item
    let vs ← readItems room rest
    return v :: vs

/-- The document of a node, which is an object without reserved name. -/
def readDocument (room : Nat) : Node → Except Problem Document
  | .object members ending => do
    let room ← descend room
    match ← readMembers room ending.toReading [] members with
    | .document d => return d
    | _ => throw (.data .notDocument)
  | .nameless _ => fault .malformed
  | node => refuse .extended node

/-- The value of an object, given the fields that were read before these members. -/
def readMembers (room : Nat) (ending : Reading.Ending) (fields : Document) :
    List (Quoted × Node) → Except Problem Value
  | [] => do
    ending.asked
    return .document fields
  | (key, node) :: rest => do
    let key ← textOf key
    match Marker.ofKey? key with
    | none => do
      let v ← readValue room node
      readMembers room ending (fields.insert key v) rest
    | some (.typed tag) => do
      let v ← readTagged Cursor.source tag ⟨room, node⟩
      ending.before rest
      return v
    | some .code => do
      let source ← Cursor.string ⟨room, node⟩
      match rest with
      | [] => do
        ending.asked
        return .code source
      | (second, node) :: rest => do
        let second ← textOf second
        if second = Marker.scope.name then
          let scope ← readDocument room node
          ending.before rest
          return .codeWithScope source scope
        else throw (.data (.strayKey second))
    | some .scope => do
      let scope ← readDocument room node
      match rest with
      | [] => do
        ending.asked
        throw (.data (.missingField Marker.code.name))
      | (second, node) :: rest => do
        let second ← textOf second
        if second = Marker.code.name then
          let source ← Cursor.string ⟨room, node⟩
          ending.before rest
          return .codeWithScope source scope
        else throw (.data (.strayKey second))

end

/-- The greatest number of levels in a text that is read. -/
def maxDepth : Nat := 127

/-- Reads a whole text.  What is behind the value is looked at last. -/
def readText {α : Type} (read : Cursor → Except Problem α) (text : List Char) :
    Except Problem α := do
  let (node, trailing) := Node.ofText text
  let result ← read ⟨maxDepth, node⟩
  match trailing with
  | none => return result
  | some f => fault f

end DocumentCommand.Json
