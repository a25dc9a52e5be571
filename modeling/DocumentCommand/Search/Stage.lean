import DocumentCommand.Search.Encoding

/-!
# Search stages

The stage of a pipeline that runs a search: an operator and the settings of the stage around it.
-/

namespace DocumentCommand.Search

/-- The settings of a search stage; what is not set is up to the server. -/
structure StageOptions where
  index : Option String := none
  returnStoredSource : Option Bool := none
  scoreDetails : Option Bool := none
deriving DecidableEq, Repr, Inhabited

/-- A setting of a stage with the value that it is to have, nothing where it is to be unset. -/
inductive StageOptions.Setting where
  | index (name : Option String)
  | returnStoredSource (value : Option Bool)
  | scoreDetails (value : Option Bool)
deriving DecidableEq, Repr

/-- The options with one setting made. -/
def StageOptions.set (o : StageOptions) : Setting → StageOptions
  | .index v => { o with index := v }
  | .returnStoredSource v => { o with returnStoredSource := v }
  | .scoreDetails v => { o with scoreDetails := v }

/-- The options that settings make, one after another. -/
def StageOptions.ofSettings (settings : List StageOptions.Setting) : StageOptions :=
  settings.foldl StageOptions.set {}

/-- The stage of an operator under given options. -/
def stage (operator : Operator) (options : StageOptions) : Document :=
  [("$search", .document
    (Document.field "index" (options.index.map .string)
      ++ operator.toDocument
      ++ Document.field "returnStoredSource" (options.returnStoredSource.map .bool)
      ++ Document.field "scoreDetails" (options.scoreDetails.map .bool)))]

end DocumentCommand.Search
