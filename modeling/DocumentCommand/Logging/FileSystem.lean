/-!
# The file system that log files stand in

The part of a file system that opening log files can change.  Directories are made on the way to a
path, and files are made where they are not there yet.  Both fail where something of the other kind
is in the way, and where the process may not write.  There are no links, and what is left behind
where something fails is not described.
-/

namespace DocumentCommand.Logging

namespace Path

/-- The parts of a path, which slashes separate. -/
def split (path : String) : List String :=
  (path.toList.splitOn '/').map String.ofList

/-- Does a path start at the root? -/
def isAbsolute (path : String) : Bool :=
  path.toList.head? = some '/'

/-- Can a part of a path be looked up? -/
def isName (part : String) : Bool :=
  part.utf8ByteSize ≤ 255 && part.toList.all fun c => c ≠ '/' && c.toNat ≠ 0

/-- Does a part of a path lead nowhere else? -/
def stays (part : String) : Bool :=
  part = "" || part = "."

/-- Does a part of a path lead down into what it names? -/
def descends (part : String) : Bool :=
  !stays part && part ≠ ".."

/-- Is a part the name of something? -/
def isProper (part : String) : Bool :=
  isName part && descends part

/-- Does a path end in a dot, perhaps with slashes behind it? -/
def endsInDot (parts : List String) : Bool :=
  (parts.filter (· ≠ "")).getLast? = some "."

/-- The parts in front of the last one that leads somewhere else. -/
def front (parts : List String) : List String :=
  ((parts.reverse.dropWhile stays).drop 1).reverse

/-- The path of a directory as it stands in front of the names of what the directory holds. -/
def folder (path : String) : String :=
  if path = "" ∨ path.toList.getLast? = some '/' then path else path ++ "/"

/-- The path of a file in a directory. -/
def join (directory name : String) : String :=
  folder directory ++ name

end Path

/-- The names that lead from the root to a file or a directory. -/
abbrev Location := List String

/-- Where a part of a path leads from a location.  The root is above itself. -/
def Location.next (l : Location) (part : String) : Location :=
  if Path.stays part then l
  else if part = ".." then l.dropLast
  else l ++ [part]

/-- What a process sees of a file system. -/
structure FileSystem where
  files : List Location
  /-- The directories apart from the root. -/
  directories : List Location
  /-- The files and directories that the process may not write to. -/
  closed : List Location
  /-- The working directory of the process. -/
  current : Location
  /-- Is the process told what the path of its working directory is? -/
  told : Bool
  current_proper : ∀ part ∈ current, Path.isProper part = true
  current_stands : ∀ l, l <+: current → l = [] ∨ l ∈ directories
deriving DecidableEq, Repr

namespace FileSystem

/-- Is there such a directory? -/
def hasDirectory (f : FileSystem) (l : Location) : Bool :=
  l = [] || l ∈ f.directories

/-- May something new be made at the location? -/
def takesNew (f : FileSystem) (l : Location) : Bool :=
  f.hasDirectory l.dropLast && l.dropLast ∉ f.closed

/-- The file system with one more directory. -/
def addDirectory (f : FileSystem) (l : Location) : FileSystem :=
  { f with
    directories := f.directories ++ [l]
    current_stands := fun m above =>
      (f.current_stands m above).imp_right (List.mem_append_left [l]) }

/-- The file system with one more file. -/
def addFile (f : FileSystem) (l : Location) : FileSystem :=
  { f with files := f.files ++ [l] }

/-- Makes a directory unless it is there.  A file in its place is in the way. -/
def makeDirectory (f : FileSystem) (l : Location) : Option FileSystem :=
  if l ∈ f.files then none
  else if f.hasDirectory l then some f
  else if f.takesNew l then some (f.addDirectory l)
  else none

/-- Opens a file for writing, which makes it unless it is there.  A directory in its place is in the
way. -/
def makeFile (f : FileSystem) (l : Location) : Option FileSystem :=
  if f.hasDirectory l then none
  else if l ∈ f.files then
    if l ∈ f.closed then none else some f
  else if f.takesNew l then some (f.addFile l)
  else none

/-- Takes a part of a path from a location; a directory is made where the part leads down. -/
def visit (f : FileSystem) (l : Location) (part : String) : Option FileSystem :=
  if !Path.isName part then none
  else if Path.descends part then f.makeDirectory (l ++ [part])
  else some f

/-- Goes along the parts of a path from a location, making directories on the way. -/
def enter (f : FileSystem) (l : Location) : List String → Option (FileSystem × Location)
  | [] => some (f, l)
  | part :: rest => do
    let f ← f.visit l part
    f.enter (l.next part) rest

/-- Where a path starts. -/
def start (f : FileSystem) (path : String) : Location :=
  if Path.isAbsolute path then [] else f.current

/-- Makes the directory of a path and those on the way to it.  A path that ends in a dot asks for a
directory that is there as soon as the way to it is. -/
def makePath (f : FileSystem) (path : String) : Option FileSystem := do
  let parts := Path.split path
  let (above, _) ← f.enter (f.start path) (Path.front parts)
  let (made, l) ← f.enter (f.start path) parts
  if Path.endsInDot parts && !above.hasDirectory l then none else some made

/-- Opens the file of a path for writing, with the directories on the way to it. -/
def openFile (f : FileSystem) (path : String) : Option FileSystem := do
  let parts := Path.split path
  let name := parts.getLastD ""
  let (f, l) ← f.enter (f.start path) parts.dropLast
  if Path.isProper name then f.makeFile (l ++ [name]) else none

/-- The path of the working directory, a dot where the process is not told. -/
def currentPath (f : FileSystem) : String :=
  if f.told then "/" ++ "/".intercalate f.current else "."

end FileSystem

end DocumentCommand.Logging
