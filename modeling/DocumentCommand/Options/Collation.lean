import DocumentCommand.Value.Display

/-!
# Collations

Settings for the comparison of text in one language.  Every field may be left to the server, and
only the fields that were set are sent (`Collation.toDocument`).  Some fields are choices of a few
alternatives, each of which commands and texts call by a name of its own (`Named`).

`Collation.Setting` is one step of building a collation: it gives a field a value or clears it.  The
readers of texts and documents produce settings too, so built and read collations come about in the
same way.
-/

namespace DocumentCommand

/-- A type of named alternatives. -/
class Named (α : Type) where
  /-- The alternatives in the order in which messages list them. -/
  all : List α
  name : α → String

namespace Named

variable {α : Type} [Named α]

/-- The names in order. -/
def names (α : Type) [Named α] : List String :=
  (all : List α).map name

/-- The alternative of a name. -/
def ofName? (text : String) : Option α :=
  (all : List α).find? fun a => name a = text

end Named

/-- The level of differences that a comparison heeds. -/
inductive Strength where
  | primary | secondary | tertiary | quaternary | identical
deriving DecidableEq, Repr

namespace Strength

/-- The levels from the coarsest to the finest. -/
def all : List Strength :=
  [.primary, .secondary, .tertiary, .quaternary, .identical]

/-- The number of a level in commands. -/
def level : Strength → Int32
  | .primary => 1
  | .secondary => 2
  | .tertiary => 3
  | .quaternary => 4
  | .identical => 5

/-- The level of a number. -/
def ofLevel? (n : Int32) : Option Strength :=
  all.find? fun s => s.level = n

/-- The name of a level. -/
def title : Strength → String
  | .primary => "Primary"
  | .secondary => "Secondary"
  | .tertiary => "Tertiary"
  | .quaternary => "Quaternary"
  | .identical => "Identical"

end Strength

/-- Which case comes first among texts that differ in case only. -/
inductive CaseFirst where
  | upper | lower | off
deriving DecidableEq, Repr

instance : Named CaseFirst where
  all := [.upper, .lower, .off]
  name
    | .upper => "upper"
    | .lower => "lower"
    | .off => "off"

/-- Whether blanks and punctuation count. -/
inductive Alternate where
  | nonIgnorable | shifted
deriving DecidableEq, Repr

instance : Named Alternate where
  all := [.nonIgnorable, .shifted]
  name
    | .nonIgnorable => "non-ignorable"
    | .shifted => "shifted"

/-- Which characters do not count when blanks and punctuation do not. -/
inductive MaxVariable where
  | punct | space
deriving DecidableEq, Repr

instance : Named MaxVariable where
  all := [.punct, .space]
  name
    | .punct => "punct"
    | .space => "space"

/-- Settings for the comparison of text; what is not set is up to the server. -/
structure Collation where
  locale : Option String := none
  caseLevel : Option Bool := none
  caseFirst : Option CaseFirst := none
  strength : Option Strength := none
  numericOrdering : Option Bool := none
  alternate : Option Alternate := none
  maxVariable : Option MaxVariable := none
  normalization : Option Bool := none
  backwards : Option Bool := none
deriving DecidableEq, Repr, Inhabited

namespace Collation

/-- The fields of a collation. -/
inductive Field where
  | locale | caseLevel | caseFirst | strength | numericOrdering | alternate | maxVariable
  | normalization | backwards
deriving DecidableEq, Repr

namespace Field

/-- The fields in order. -/
def all : List Field := [
  .locale, .caseLevel, .caseFirst, .strength, .numericOrdering, .alternate, .maxVariable,
  .normalization, .backwards]

/-- The name of a field in commands and texts. -/
def name : Field → String
  | .locale => "locale"
  | .caseLevel => "caseLevel"
  | .caseFirst => "caseFirst"
  | .strength => "strength"
  | .numericOrdering => "numericOrdering"
  | .alternate => "alternate"
  | .maxVariable => "maxVariable"
  | .normalization => "normalization"
  | .backwards => "backwards"

end Field

/-- A field with the value that it is to have, nothing where it is to be unset. -/
inductive Setting where
  | locale (value : Option String)
  | caseLevel (value : Option Bool)
  | caseFirst (value : Option CaseFirst)
  | strength (value : Option Strength)
  | numericOrdering (value : Option Bool)
  | alternate (value : Option Alternate)
  | maxVariable (value : Option MaxVariable)
  | normalization (value : Option Bool)
  | backwards (value : Option Bool)
deriving DecidableEq, Repr

/-- The collation with one field set. -/
def set (c : Collation) : Setting → Collation
  | .locale v => { c with locale := v }
  | .caseLevel v => { c with caseLevel := v }
  | .caseFirst v => { c with caseFirst := v }
  | .strength v => { c with strength := v }
  | .numericOrdering v => { c with numericOrdering := v }
  | .alternate v => { c with alternate := v }
  | .maxVariable v => { c with maxVariable := v }
  | .normalization v => { c with normalization := v }
  | .backwards v => { c with backwards := v }

/-- The collation that settings build, one after another. -/
def ofSettings (settings : List Setting) : Collation :=
  settings.foldl set {}

/-- The document sent with a command: the fields that are set, in order. -/
def toDocument (c : Collation) : Document :=
  let nameOf {α : Type} [Named α] (a : α) : Value := .string (Named.name a)
  Document.field "locale" (c.locale.map .string)
    ++ Document.field "caseLevel" (c.caseLevel.map .bool)
    ++ Document.field "caseFirst" (c.caseFirst.map nameOf)
    ++ Document.field "strength" (c.strength.map fun s => .int32 s.level)
    ++ Document.field "numericOrdering" (c.numericOrdering.map .bool)
    ++ Document.field "alternate" (c.alternate.map nameOf)
    ++ Document.field "maxVariable" (c.maxVariable.map nameOf)
    ++ Document.field "normalization" (c.normalization.map .bool)
    ++ Document.field "backwards" (c.backwards.map .bool)

/-- The value of a field when the collation is written as a record. -/
def fieldValue? (c : Collation) : Field → Option Value
  | .locale => c.locale.map .string
  | .caseLevel => c.caseLevel.map .bool
  | .caseFirst => c.caseFirst.map fun v => .string (Named.name v)
  | .strength => c.strength.map fun v => .int32 v.level
  | .numericOrdering => c.numericOrdering.map .bool
  | .alternate => c.alternate.map fun v => .string (Named.name v)
  | .maxVariable => c.maxVariable.map fun v => .string (Named.name v)
  | .normalization => c.normalization.map .bool
  | .backwards => c.backwards.map .bool

/-- The collation written as a record: each field under its name, unset fields left out. -/
def toRecord (c : Collation) : Document :=
  Field.all.filterMap fun f => (c.fieldValue? f).map (f.name, ·)

/-- The diagnostic text of a collation. -/
def display (c : Collation) : List Char :=
  let nameText {α : Type} [Named α] (a : α) : List Char := (Named.name a).toList
  "Collation\x7blocale=".toList ++ Text.orNull (fun l => '\'' :: l.toList ++ ['\'']) c.locale
    ++ ", caseLevel=".toList ++ Text.orNull Text.ofBool c.caseLevel
    ++ ", caseFirst=".toList ++ Text.orNull nameText c.caseFirst
    ++ ", strength=".toList ++ Text.orNull (fun s => Text.Digits.ofInt s.level.toInt) c.strength
    ++ ", numericOrdering=".toList ++ Text.orNull Text.ofBool c.numericOrdering
    ++ ", alternate=".toList ++ Text.orNull nameText c.alternate
    ++ ", maxVariable=".toList ++ Text.orNull nameText c.maxVariable
    ++ ", normalization=".toList ++ Text.orNull Text.ofBool c.normalization
    ++ ", backwards=".toList ++ Text.orNull Text.ofBool c.backwards
    ++ ['\x7d']

end Collation

end DocumentCommand
