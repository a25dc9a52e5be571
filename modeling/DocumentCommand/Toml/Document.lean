import DocumentCommand.Toml.Quoted
import DocumentCommand.Toml.Scalar

/-!
# TOML texts

A text is a sequence of lines, each of which gives a key its value or opens a table.  The whole
text is read before anyone looks at what it says; a text that is not TOML, or that gives a key
twice, says nothing at all (`Table.ofText?`).
-/

namespace DocumentCommand.Toml

open Quoted (isPlain)

/-- The greatest number of arrays and inline tables within one another. -/
def maxDepth : Nat := 80

/-- The greatest number of parts in a key. -/
def maxParts : Nat := 80

/-- What follows spaces and tabs. -/
def dropBlanks (text : List Char) : List Char :=
  text.dropWhile fun c => c == ' ' || c == '\t'

/-- What follows blanks, line breaks and comments, none where a comment holds a control character.
-/
def dropGap? (inComment : Bool) : List Char → Option (List Char)
  | [] => some []
  | '\n' :: rest => dropGap? false rest
  | '\r' :: '\n' :: rest => dropGap? false rest
  | c :: rest =>
    if inComment then (if isPlain c then dropGap? true rest else none)
    else if c = ' ' ∨ c = '\t' then dropGap? false rest
    else if c = '#' then dropGap? true rest
    else some (c :: rest)

/-- What follows the end of a line, before which there may be a comment. -/
def dropLineEnd? (inComment : Bool) : List Char → Option (List Char)
  | [] => some []
  | '\n' :: rest => some rest
  | '\r' :: '\n' :: rest => some rest
  | c :: rest =>
    if inComment then (if isPlain c then dropLineEnd? true rest else none)
    else if c = ' ' ∨ c = '\t' then dropLineEnd? false rest
    else if c = '#' then dropLineEnd? true rest
    else none

/-- May the character stand in a key without quotes? -/
def isKeyChar (c : Char) : Bool :=
  c.isAlphanum || c == '_' || c == '-'

/-- One part of a key, and what follows it. -/
def scanKeyPart? (text : List Char) : Option (String × List Char) :=
  let scanned := match text with
    | '"' :: rest => Quoted.scanBasic? rest
    | '\'' :: rest => Quoted.scanLiteral? rest
    | text =>
      let bare := text.takeWhile isKeyChar
      if bare = [] then none else some (bare, text.dropWhile isKeyChar)
  scanned.map fun (s, rest) => (String.ofList s, rest)

/-- One or more parts of a key with points between them, and what follows them. -/
def scanKeyParts? : Nat → List Char → Option (List String × List Char)
  | 0, _ => none
  | fuel + 1, text => do
    let (part, rest) ← scanKeyPart? text
    match dropBlanks rest with
    | '.' :: more => do
      let (parts, rest) ← scanKeyParts? fuel (dropBlanks more)
      return (part :: parts, rest)
    | rest => return ([part], rest)

/-- A key of no more parts than there may be, and what follows it. -/
def scanKey? (text : List Char) : Option (List String × List Char) := do
  let (parts, rest) ← scanKeyParts? text.length text
  guard (parts.length ≤ maxParts)
  return (parts, rest)

mutual

/-- The value at the head of a text, and what follows it.  The second number is how many brackets
may open within it. -/
def scanValue? : Nat → Nat → List Char → Option (Scalar × List Char)
  | 0, _, _ => none
  | fuel + 1, room, text =>
    match text, room with
    | [], _ => none
    | '[' :: rest, room + 1 => (scanElements? fuel room rest).map (.found .sequence, ·)
    | '\x7b' :: rest, room + 1 => (scanPairs? fuel room [] rest).map (.found .map, ·)
    | c :: rest, _ =>
      if c = '"' ∨ c = '\'' then
        (Quoted.scan? (c :: rest)).map fun (s, rest) => (.found (.string s), rest)
      else
        let (run, rest) := Scalar.scanRun (c :: rest)
        (Scalar.ofRun? run).map (·, rest)

/-- What follows an array, from behind its opening bracket or a comma. -/
def scanElements? : Nat → Nat → List Char → Option (List Char)
  | 0, _, _ => none
  | fuel + 1, room, text => do
    match ← dropGap? false text with
    | ']' :: rest => return rest
    | text => do
      let (_, rest) ← scanValue? fuel room text
      match ← dropGap? false rest with
      | ']' :: rest => return rest
      | ',' :: rest => scanElements? fuel room rest
      | _ => none

/-- What follows an inline table, from behind its opening brace or a comma.  The table is what the
keys so far add up to. -/
def scanPairs? : Nat → Nat → Table → List Char → Option (List Char)
  | 0, _, _, _ => none
  | fuel + 1, room, table, text => do
    match ← dropGap? false text with
    | '\x7d' :: rest => return rest
    | text => do
      let (table, rest) ← scanAssignment? fuel room table text
      match ← dropGap? false rest with
      | '\x7d' :: rest => return rest
      | ',' :: rest => scanPairs? fuel room table rest
      | _ => none

/-- A table with the key and value at the head of a text, and what follows them. -/
def scanAssignment? : Nat → Nat → Table → List Char → Option (Table × List Char)
  | 0, _, _, _ => none
  | fuel + 1, room, table, text => do
    match ← scanKey? text with
    | (key, '=' :: rest) => do
      let (value, rest) ← scanValue? fuel room (dropBlanks rest)
      return (← table.assign value key, rest)
    | _ => none

end

/-- The key of a header, and what follows the given closing brackets. -/
def scanHeader? (closing text : List Char) : Option (List String × List Char) := do
  let (key, rest) ← scanKey? (dropBlanks text)
  guard (closing.isPrefixOf rest)
  return (key, rest.drop closing.length)

/-- What the lines of a text add to a table, the path being that of the last header. -/
def scanLines? : Nat → List String → Table → List Char → Option Table
  | 0, _, _, _ => none
  | fuel + 1, path, table, text => do
    match ← dropGap? false text with
    | [] => return table
    | '[' :: '[' :: rest => do
      let (key, rest) ← scanHeader? [']', ']'] rest
      scanLines? fuel key (← table.openRow key) (← dropLineEnd? false rest)
    | '[' :: rest => do
      let (key, rest) ← scanHeader? [']'] rest
      scanLines? fuel key (← table.openTable key) (← dropLineEnd? false rest)
    | text => do
      match ← scanKey? text with
      | (key, '=' :: rest) => do
        let (value, rest) ← scanValue? (2 * text.length + 2) maxDepth (dropBlanks rest)
        let table ← table.current (Table.assign value key) path
        scanLines? fuel path table (← dropLineEnd? false rest)
      | _ => none

/-- The table that a text writes, none where it writes none.  A byte order mark in front is passed
over. -/
def Table.ofText? (text : List Char) : Option Table :=
  let text := match text with
    | '\ufeff' :: rest => rest
    | text => text
  scanLines? (text.length + 1) [] [] text

end DocumentCommand.Toml
