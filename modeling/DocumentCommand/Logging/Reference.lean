/-!
# Variables in the paths of log files

The path of a log file may refer to variables of the environment: `$ENV`, and behind it the name of
a variable in braces.  A reference to a variable that is set stands for its value, wherever the same
reference occurs.  A variable that is not set, or a name that is none, leaves the text as it is.
-/

namespace DocumentCommand.Logging.Reference

/-- What stands in front of the name of a variable. -/
def opening : List Char := "$ENV\x7b".toList

/-- May the name of a variable start with the character? -/
def startsName (c : Char) : Bool :=
  c.isAlphanum || c == '_'

/-- May the character stand in the name of a variable? -/
def continuesName (c : Char) : Bool :=
  startsName c || c == '.'

/-- The reference to a variable. -/
def text (name : List Char) : List Char :=
  opening ++ name ++ ['\x7d']

/-- The variable to which the head of a text refers, if it does. -/
def atHead? (path : List Char) : Option (List Char) :=
  let rest := path.drop opening.length
  let name := rest.takeWhile continuesName
  if opening.isPrefixOf path && name.head?.any startsName && rest[name.length]? == some '\x7d' then
    some name
  else none

/-- The variables to which a text refers, in order. -/
def names : List Char → List (List Char)
  | [] => []
  | c :: rest => (atHead? (c :: rest)).toList ++ names rest

/-- The text with a value in place of each occurrence of a reference. -/
def replace (reference value : List Char) : List Char → List Char
  | [] => []
  | c :: rest =>
    if reference.isPrefixOf (c :: rest) then
      value ++ replace reference value (rest.drop (reference.length - 1))
    else c :: replace reference value rest
termination_by path => path.length
decreasing_by all_goals simp only [List.length_drop, List.length_cons]; omega

/-- The text with the value of a variable, if that is set, in place of the references to it. -/
def fill (lookup : String → Option String) (path name : List Char) : List Char :=
  match lookup (String.ofList name) with
  | some value => replace (text name) value.toList path
  | none => path

/-- The text with the value of each variable that is set in place of the references to it. -/
def expand (lookup : String → Option String) (path : List Char) : List Char :=
  (names path).foldl (fill lookup) path

/-- The path with the value of each variable that is set. -/
def expandPath (lookup : String → Option String) (path : String) : String :=
  String.ofList (expand lookup path.toList)

/-- A text without references stands for itself. -/
theorem expand_of_names_eq_nil (lookup : String → Option String) {path : List Char}
    (none_there : names path = []) : expand lookup path = path := by
  simp [expand, none_there]

end DocumentCommand.Logging.Reference
