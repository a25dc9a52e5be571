import DocumentCommand.Options.Collation
import DocumentCommand.Value.Extended
import DocumentCommand.Value.Stored

/-!
# Options of an update

The optional parts of one update command.  Options only carry what they are given: nothing here
checks how fields relate to one another, and both forms of a hint may be set.  An unset field is
told apart from every value that it could have.

`UpdateOptions.Setting` is one call of a setter.  Any options are built by at most one setting per
field, and the readers of texts and documents produce settings as well.
-/

namespace DocumentCommand

/-- The optional parts of an update command. -/
structure UpdateOptions where
  /-- Is a document inserted when none matches? -/
  upsert : Bool := false
  bypassDocumentValidation : Option Bool := none
  collation : Option Collation := none
  arrayFilters : Option (List Document) := none
  /-- The index to use, given by its keys. -/
  hint : Option Document := none
  /-- The index to use, given by its name. -/
  hintString : Option String := none
  comment : Option Value := none
  /-- The variables that the command binds. -/
  bindings : Option Document := none
  sort : Option Document := none
deriving Repr, Inhabited

namespace UpdateOptions

/-- The fields of the options. -/
inductive Field where
  | upsert | bypassDocumentValidation | collation | arrayFilters | hint | hintString | comment
  | bindings | sort
deriving DecidableEq, Repr

namespace Field

/-- The fields in order. -/
def all : List Field := [
  .upsert, .bypassDocumentValidation, .collation, .arrayFilters, .hint, .hintString, .comment,
  .bindings, .sort]

/-- The name of a field in texts and documents. -/
def name : Field → String
  | .upsert => "upsert"
  | .bypassDocumentValidation => "bypassDocumentValidation"
  | .collation => "collation"
  | .arrayFilters => "arrayFilters"
  | .hint => "hint"
  | .hintString => "hintString"
  | .comment => "comment"
  | .bindings => "let"
  | .sort => "sort"

end Field

/-- A call of a setter: a field with the value that it is to have, nothing where it is to be
unset. -/
inductive Setting where
  | upsert (value : Bool)
  | bypassDocumentValidation (value : Option Bool)
  | collation (value : Option Collation)
  | arrayFilters (value : Option (List Document))
  | hint (value : Option Document)
  | hintString (value : Option String)
  /-- A comment that is plain text. -/
  | comment (text : Option String)
  /-- A comment that is any value, null included. -/
  | commentValue (value : Option Value)
  | bindings (value : Option Document)
  | sort (value : Option Document)
deriving Repr

/-- The field that a setting sets. -/
def Setting.field : Setting → Field
  | .upsert _ => .upsert
  | .bypassDocumentValidation _ => .bypassDocumentValidation
  | .collation _ => .collation
  | .arrayFilters _ => .arrayFilters
  | .hint _ => .hint
  | .hintString _ => .hintString
  | .comment _ => .comment
  | .commentValue _ => .comment
  | .bindings _ => .bindings
  | .sort _ => .sort

/-- The options with one field set. -/
def set (o : UpdateOptions) : Setting → UpdateOptions
  | .upsert v => { o with upsert := v }
  | .bypassDocumentValidation v => { o with bypassDocumentValidation := v }
  | .collation v => { o with collation := v }
  | .arrayFilters v => { o with arrayFilters := v }
  | .hint v => { o with hint := v }
  | .hintString v => { o with hintString := v }
  | .comment text => { o with comment := text.map .string }
  | .commentValue v => { o with comment := v }
  | .bindings v => { o with bindings := v }
  | .sort v => { o with sort := v }

/-- The options that settings build, one after another. -/
def ofSettings (settings : List Setting) : UpdateOptions :=
  settings.foldl set {}

/-- The value of a field when the options are written as a record. -/
def fieldValue? (o : UpdateOptions) : Field → Option Value
  | .upsert => some (.bool o.upsert)
  | .bypassDocumentValidation => o.bypassDocumentValidation.map .bool
  | .collation => o.collation.map fun c => .document c.toRecord
  | .arrayFilters => o.arrayFilters.map Value.documents
  | .hint => o.hint.map .document
  | .hintString => o.hintString.map .string
  | .comment => o.comment
  | .bindings => o.bindings.map .document
  | .sort => o.sort.map .document

/-- The options written as a record: each field under its name, unset fields left out. -/
def toRecord (o : UpdateOptions) : Document :=
  Field.all.filterMap fun f => (o.fieldValue? f).map (f.name, ·)

/-- The options as JSON. -/
def toDatum (o : UpdateOptions) : Json.Datum :=
  o.toRecord.toDatum

/-- The options as JSON text. -/
def json (o : UpdateOptions) : List Char :=
  o.toDatum.text

/-- The options stored as a document. -/
def stored (o : UpdateOptions) : Document :=
  Value.storedEntries o.toRecord

/-- Comparison field by field, documents without regard to the order of their fields. -/
def same (a b : UpdateOptions) : Bool :=
  let both {α : Type} (eq : α → α → Bool) : Option α → Option α → Bool
    | some x, some y => eq x y
    | none, none => true
    | _, _ => false
  a.upsert == b.upsert && a.bypassDocumentValidation == b.bypassDocumentValidation
    && a.collation == b.collation && both Document.sameAll a.arrayFilters b.arrayFilters
    && both Document.same a.hint b.hint && a.hintString == b.hintString
    && both Value.same a.comment b.comment && both Document.same a.bindings b.bindings
    && both Document.same a.sort b.sort

/-- The diagnostic text of the options. -/
def display (o : UpdateOptions) : List Char :=
  let documentsText (ds : List Document) : List Char :=
    '[' :: Value.commaSeparated (ds.map Document.display) ++ [']']
  "UpdateOptions\x7bupsert=".toList ++ Text.ofBool o.upsert
    ++ ", bypassDocumentValidation=".toList
    ++ Text.orNull Text.ofBool o.bypassDocumentValidation
    ++ ", collation=".toList ++ Text.orNull Collation.display o.collation
    ++ ", arrayFilters=".toList ++ Text.orNull documentsText o.arrayFilters
    ++ ", hint=".toList ++ Text.orNull Document.display o.hint
    ++ ", hintString=".toList ++ Text.orNull String.toList o.hintString
    ++ ", comment=".toList ++ Text.orNull Value.display o.comment
    ++ ", let=".toList ++ Text.orNull Document.display o.bindings
    ++ ", sort=".toList ++ Text.orNull Document.display o.sort
    ++ ['\x7d']

end UpdateOptions

end DocumentCommand
