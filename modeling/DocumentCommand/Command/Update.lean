import DocumentCommand.Logging.Record
import DocumentCommand.Options.Update

/-!
# Update commands

A filter, a modification and options, encoded as the document that the server runs.  Options pass
through untouched.  A statement has one slot for a hint; where both forms are set the document is
sent, and the name that is not sent is noted in the log.
-/

namespace DocumentCommand.Command

/-- What an update does to the documents it matches. -/
inductive Modification where
  /-- Update operators, or a replacement. -/
  | document (d : Document)
  /-- The stages of a pipeline. -/
  | pipeline (stages : List Document)
deriving Repr, Inhabited

/-- The modification in a command. -/
def Modification.toValue : Modification → Value
  | .document d => .document d
  | .pipeline stages => Value.documents stages

/-- Comparison of modifications. -/
def Modification.same : Modification → Modification → Bool
  | .document a, .document b => a.same b
  | .pipeline as, .pipeline bs => Document.sameAll as bs
  | _, _ => false

/-- An update of one collection. -/
structure Update where
  collection : String
  filter : Document
  modification : Modification
  /-- Are all matching documents updated, or only one? -/
  multi : Bool
  options : UpdateOptions := {}
deriving Repr, Inhabited

namespace Update

/-- An update of at most one document. -/
def one (collection : String) (filter : Document) (modification : Modification) : Update :=
  { collection, filter, modification, multi := false }

/-- An update of every matching document. -/
def many (collection : String) (filter : Document) (modification : Modification) : Update :=
  { collection, filter, modification, multi := true }

/-- The update under other options. -/
def withOptions (u : Update) (o : UpdateOptions) : Update :=
  { u with options := o }

/-- The hint that is sent: the document where there is one, else the name. -/
def hint? (o : UpdateOptions) : Option Value :=
  match o.hint with
  | some d => some (.document d)
  | none => o.hintString.map .string

/-- The record of a name that is not sent because a document is. -/
def unsentHint? (u : Update) : Option LogRecord :=
  match u.options.hint, u.options.hintString with
  | some d, some name =>
    some ⟨.debug, commandTarget,
      "update on " ++ u.collection ++ ": hint " ++ String.ofList d.display
        ++ " sent, hintString '" ++ name ++ "' not sent"⟩
  | _, _ => none

/-- The single statement of the command. -/
def statement (u : Update) : Document :=
  let o := u.options
  [("q", .document u.filter), ("u", u.modification.toValue)]
    ++ Document.field "upsert" (if o.upsert then some (.bool true) else none)
    ++ Document.field "multi" (if u.multi then some (.bool true) else none)
    ++ Document.field "collation" (o.collation.map fun c => .document c.toDocument)
    ++ Document.field "arrayFilters" (o.arrayFilters.map Value.documents)
    ++ Document.field "hint" (hint? o)
    ++ Document.field "sort" (o.sort.map .document)

/-- The document of the command. -/
def document (u : Update) : Document :=
  let o := u.options
  [("update", .string u.collection), ("updates", Value.documents [u.statement]),
      ("ordered", .bool true)]
    ++ Document.field "bypassDocumentValidation" (o.bypassDocumentValidation.map .bool)
    ++ Document.field "comment" o.comment
    ++ Document.field "let" (o.bindings.map .document)

/-- Encodes the command, noting a hint that is not sent. -/
def toDocument (u : Update) : Logged Document :=
  ⟨u.document, u.unsentHint?.toList⟩

/-- Comparison of updates, documents without regard to the order of their fields. -/
def same (a b : Update) : Bool :=
  a.collection == b.collection && a.filter.same b.filter && a.modification.same b.modification
    && a.multi == b.multi && a.options.same b.options

end Update

end DocumentCommand.Command
