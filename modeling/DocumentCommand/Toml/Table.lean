import DocumentCommand.Reading.Problem

/-!
# TOML tables

What the lines of a text add up to.  A value is kept only as far as its reader can tell it apart
from others, since arrays and inline tables are closed once they are written.  Tables remember how
they came about, because that decides which later lines may add to them:

* a table that only stands between others in a header may get a header of its own, once;
* a table that a dotted key brought about is extended by dotted keys alone, though headers may put
  tables below it;
* each row of an array of tables is open until the next one starts.
-/

namespace DocumentCommand.Toml

open Reading (Found)

/-- How a table came about. -/
inductive Origin where
  /-- It stands between the root and the table of a header. -/
  | passed
  /-- A dotted key goes through it. -/
  | dotted
  /-- It has a header of its own. -/
  | headed
deriving DecidableEq, Repr

/-- What a value is to its reader. -/
inductive Scalar where
  | found (f : Found)
  /-- A number outside the range of every kind. -/
  | unrepresentable
deriving DecidableEq, Repr

/-- What a key stands for. -/
inductive Item where
  | value (v : Scalar)
  | table (origin : Origin) (entries : List (String × Item))
  /-- The rows of an array of tables, the last one first. -/
  | rows (entries : List (List (String × Item)))
deriving Repr

/-- Keys and what they stand for, in the order of the text. -/
abbrev Table := List (String × Item)

namespace Table

/-- Replaces what a key stands for, or adds the key; none where that is not allowed. -/
def alter (key : String) (f : Option Item → Option Item) : Table → Option Table
  | [] => (f none).map fun item => [(key, item)]
  | (k, item) :: rest =>
    if k = key then (f (some item)).map fun item => (k, item) :: rest
    else (alter key f rest).map ((k, item) :: ·)

/-- Applies a change to the table that a key leads to from a header's point of view: a table, or the
last row of an array of tables. -/
def within (change : Table → Option Table) : Option Item → Option Item
  | none => (change []).map (.table .passed)
  | some (.table origin entries) => (change entries).map (.table origin)
  | some (.rows (row :: others)) => (change row).map fun row => .rows (row :: others)
  | some _ => none

/-- Starts the table of a header. -/
def openTable : List String → Table → Option Table
  | [], _ => none
  | [key], t => t.alter key fun
    | none => some (.table .headed [])
    | some (.table .passed entries) => some (.table .headed entries)
    | some _ => none
  | key :: path, t => t.alter key (within (openTable path))

/-- Starts the next row of an array of tables. -/
def openRow : List String → Table → Option Table
  | [], _ => none
  | [key], t => t.alter key fun
    | none => some (.rows [[]])
    | some (.rows rows) => some (.rows ([] :: rows))
    | some _ => none
  | key :: path, t => t.alter key (within (openRow path))

/-- Gives a key, which may be dotted, its value. -/
def assign (v : Scalar) : List String → Table → Option Table
  | [], _ => none
  | [key], t => t.alter key fun
    | none => some (.value v)
    | some _ => none
  | key :: path, t => t.alter key fun
    | none => (assign v path []).map (.table .dotted)
    | some (.table .dotted entries) => (assign v path entries).map (.table .dotted)
    | some (.table .passed entries) =>
      if path.length = 1 then none else (assign v path entries).map (.table .passed)
    | some _ => none

/-- Applies a change to the table that the last header opened. -/
def current (change : Table → Option Table) : List String → Table → Option Table
  | [], t => change t
  | key :: path, t => t.alter key (within (current change path))

end Table

/-- What an item is to its reader. -/
def Item.scalar : Item → Scalar
  | .value v => v
  | .table _ _ => .found .map
  | .rows _ => .found .sequence

end DocumentCommand.Toml
