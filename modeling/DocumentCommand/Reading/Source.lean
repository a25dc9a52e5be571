import DocumentCommand.Reading.Problem
import DocumentCommand.Value.Basic

/-!
# Sources of data

A `Source` says how one format answers the questions that readers of records ask, each about a
piece of data of the format's own type.  Readers that are written against a source read every
format by the same rules, and what two formats do differently is visible in their sources and
nowhere else.
-/

namespace DocumentCommand.Reading

/-- What a reader learns at the end of a list of pieces. -/
structure Ending where
  /-- It asked for another piece and there is none. -/
  asked : Except Problem Unit
  /-- It has all pieces and did not ask for another. -/
  complete : Except Problem Unit
  /-- It stopped, and pieces are left. -/
  surplus : Except Problem Unit

/-- The ending of a list that may simply stop. -/
def Ending.open : Ending :=
  ⟨.ok (), .ok (), .ok ()⟩

/-- What a reader learns when it stops before the given pieces. -/
def Ending.before {α : Type} (ending : Ending) : List α → Except Problem Unit
  | [] => ending.complete
  | _ :: _ => ending.surplus

/-- Pieces in order and how they end. -/
structure Run (α : Type) where
  items : List α
  ending : Ending

/-- A record as a format writes it: its fields by name, or by position. -/
inductive Record (ν : Type) where
  | named (members : Run (Except Problem String × ν))
  | positional (items : Run ν)

/-- How a format answers questions about a piece of data. -/
structure Source (ν : Type) where
  /-- Is it null? -/
  isNull : ν → Except Problem Bool
  bool : ν → Except Problem Bool
  string : ν → Except Problem String
  int32 : ν → Except Problem Int32
  /-- A natural number below the bound. -/
  natural : Nat → ν → Except Problem Nat
  bytes : ν → Except Problem (List UInt8)
  /-- One of a list of names. -/
  variant : List String → ν → Except Problem String
  sequence : ν → Except Problem (Run ν)
  record : Wanted → ν → Except Problem (Record ν)
  /-- What the object of an identifier holds. -/
  objectId : ν → Except Problem ObjectId
  /-- What the object of an instant holds. -/
  instant : ν → Except Problem Instant
  /-- Passes over a piece that nobody wants. -/
  skip : ν → Except Problem Unit

namespace Source

variable {ν : Type} (S : Source ν)

/-- A piece that may be null. -/
def optional {α : Type} (read : ν → Except Problem α) (v : ν) : Except Problem (Option α) := do
  if ← S.isNull v then return none else return some (← read v)

/-- A sequence, member by member. -/
def list {α : Type} (read : ν → Except Problem α) (v : ν) : Except Problem (List α) := do
  let run ← S.sequence v
  let items ← run.items.mapM read
  run.ending.asked
  return items

end Source

/-- The names of a record's fields in order. -/
structure Fields (φ : Type) where
  order : List φ
  name : φ → String

namespace Fields

variable {φ ν σ : Type} [DecidableEq φ] (F : Fields φ)

/-- The field of a name. -/
def find? (name : String) : Option φ :=
  F.order.find? fun f => F.name f = name

/-- Reads members by name, in the order in which they stand.  A field given twice is a mismatch,
noticed before the second value is looked at; what members without a field do is up to `unknown`.
-/
def readNamed (read : φ → ν → Except Problem σ) (unknown : String → ν → Except Problem Unit)
    (ending : Ending) : List φ → List (Except Problem String × ν) → Except Problem (List σ)
  | _, [] => do
    ending.asked
    return []
  | seen, (name, v) :: rest => do
    let name ← name
    match F.find? name with
    | none =>
      unknown name v
      readNamed read unknown ending seen rest
    | some f =>
      if f ∈ seen then throw (.data (.duplicateField name))
      let x ← read f v
      let xs ← readNamed read unknown ending (f :: seen) rest
      return x :: xs

/-- Reads members by position; the last fields may be missing. -/
def readPositional (read : φ → ν → Except Problem σ) (ending : Ending) :
    List φ → List ν → Except Problem (List σ)
  | [], rest => do
    ending.before rest
    return []
  | _ :: _, [] => do
    ending.asked
    return []
  | f :: fs, v :: rest => do
    let x ← read f v
    let xs ← readPositional read ending fs rest
    return x :: xs

/-- Reads the members of a record that its format writes either way. -/
def readRecord (read : φ → ν → Except Problem σ) (unknown : String → ν → Except Problem Unit) :
    Record ν → Except Problem (List σ)
  | .named members => F.readNamed read unknown members.ending [] members.items
  | .positional items => readPositional read items.ending F.order items.items

end Fields

end DocumentCommand.Reading
