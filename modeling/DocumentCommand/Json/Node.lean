import DocumentCommand.Json.Quoted

/-!
# JSON texts as trees

Reading a text into a tree never fails.  Where the text stops being JSON the tree ends, and the
place says why.  A reader of the tree meets values and faults in the order in which they stand in
the text, so it can refuse a value for what it is before it learns that the text breaks further
on, and it can pass over a value that it does not want without asking what its numbers and strings
mean.
-/

namespace DocumentCommand.Json

/-- How a list of elements or members ends. -/
inductive Ending where
  | closed
  /-- Neither a comma nor a closing bracket follows what stands before. -/
  | cut (f : Fault)
  /-- A comma stands there, and neither an element nor a member follows it. -/
  | comma (f : Fault)
deriving DecidableEq, Repr

/-- Where a value was to stand and is not, or is not whole. -/
inductive Broken where
  /-- Nothing there starts a value. -/
  | absent (f : Fault)
  /-- The word `null` is not written out. -/
  | null (f : Fault)
  /-- The word `true` or `false` is not written out. -/
  | bool (f : Fault)
  /-- A number lacks digits that it needs, or starts with a needless zero. -/
  | number (f : Fault)
deriving DecidableEq, Repr

/-- A value as it is written. -/
inductive Node where
  | null
  | bool (b : Bool)
  | number (n : Numeral)
  | string (q : Quoted)
  | array (items : List Node) (ending : Ending)
  | object (members : List (Quoted × Node)) (ending : Ending)
  /-- An object that starts with a value where the name of a member was to stand. -/
  | nameless (first : Node)
  | broken (b : Broken)
deriving Repr, Inhabited

namespace Node

/-- The four characters that may stand between the parts of a text. -/
def isBlank (c : Char) : Bool :=
  c == ' ' || c == '\t' || c == '\n' || c == '\r'

/-- The text behind its leading blanks. -/
def skipBlanks (text : List Char) : List Char :=
  text.dropWhile isBlank

/-- The rest of a word, and what follows it. -/
def scanWord : List Char → List Char → Except Fault (List Char)
  | [], rest => .ok rest
  | _ :: _, [] => .error .eof
  | c :: word, d :: rest => if c = d then scanWord word rest else .error .malformed

/-- A word that stands for a value.  No text follows a value that breaks. -/
def scanLiteral (word : String) (whole : Node) (cut : Fault → Broken) (text : List Char) :
    Node × Option (List Char) :=
  match scanWord word.toList text with
  | .ok rest => (whole, some rest)
  | .error f => (.broken (cut f), none)

/-- A number. -/
def scanNumber (text : List Char) : Node × Option (List Char) :=
  match Numeral.scan text with
  | .ok (n, rest) => (.number n, some rest)
  | .error f => (.broken (.number f), none)

/-- Does the text behind an opening brace go on with a name, close, or end? -/
def startsMembers (text : List Char) : Bool :=
  match skipBlanks text with
  | [] => true
  | c :: _ => c == '"' || c == '\x7d'

/-- What follows a string, unless it does not close. -/
def restOf (scanned : Quoted × List Char) : Option (List Char) :=
  if scanned.1.fault = none then some scanned.2 else none

mutual

/-- The value at the head of a text, and what follows it. -/
def scanValue : Nat → List Char → Node × Option (List Char)
  | 0, _ => (.broken (.absent .malformed), none)
  | fuel + 1, text =>
    match skipBlanks text with
    | [] => (.broken (.absent .eof), none)
    | c :: rest =>
      if c = '"' then
        let scanned := Quoted.scan rest
        (.string scanned.1, restOf scanned)
      else if c = '[' then
        let (items, ending, rest) := scanItems fuel true rest
        (.array items ending, rest)
      else if c = '\x7b' then
        if startsMembers rest = true then
          let (members, ending, rest) := scanMembers fuel true rest
          (.object members ending, rest)
        else (.nameless (scanValue fuel rest).1, none)
      else if c = 'n' then scanLiteral "ull" .null .null rest
      else if c = 't' then scanLiteral "rue" (.bool true) .bool rest
      else if c = 'f' then scanLiteral "alse" (.bool false) .bool rest
      else if c = '-' ∨ c.isDigit = true then scanNumber (c :: rest)
      else (.broken (.absent .malformed), none)

/-- The elements of an array from behind its opening bracket, or from behind an element. -/
def scanItems : Nat → Bool → List Char → List Node × Ending × Option (List Char)
  | 0, _, _ => ([], .cut .malformed, none)
  | fuel + 1, first, text =>
    match skipBlanks text with
    | [] => ([], .cut .eof, none)
    | c :: rest =>
      if c = ']' then ([], .closed, some rest)
      else if first = true then scanItem fuel (c :: rest)
      else if c = ',' then
        match skipBlanks rest with
        | [] => ([], .comma .eof, none)
        | d :: rest => if d = ']' then ([], .comma .malformed, none) else scanItem fuel (d :: rest)
      else ([], .cut .malformed, none)

/-- An element and those behind it. -/
def scanItem : Nat → List Char → List Node × Ending × Option (List Char)
  | 0, _ => ([], .cut .malformed, none)
  | fuel + 1, text =>
    match scanValue fuel text with
    | (item, none) => ([item], .cut .malformed, none)
    | (item, some rest) =>
      let (items, ending, rest) := scanItems fuel false rest
      (item :: items, ending, rest)

/-- The members of an object from behind its opening brace, or from behind a member. -/
def scanMembers : Nat → Bool → List Char → List (Quoted × Node) × Ending × Option (List Char)
  | 0, _, _ => ([], .cut .malformed, none)
  | fuel + 1, first, text =>
    match skipBlanks text with
    | [] => ([], .cut .eof, none)
    | c :: rest =>
      if c = '\x7d' then ([], .closed, some rest)
      else if first = true then
        if c = '"' then scanMember fuel rest else ([], .cut .malformed, none)
      else if c = ',' then
        match skipBlanks rest with
        | [] => ([], .comma .eof, none)
        | d :: rest => if d = '"' then scanMember fuel rest else ([], .comma .malformed, none)
      else ([], .cut .malformed, none)

/-- A member from behind the opening quotation mark of its name, and those behind it. -/
def scanMember : Nat → List Char → List (Quoted × Node) × Ending × Option (List Char)
  | 0, _ => ([], .cut .malformed, none)
  | fuel + 1, text =>
    let (name, afterName) := Quoted.scan text
    match skipBlanks afterName with
    | [] => ([(name, .broken (.absent .eof))], .cut .malformed, none)
    | c :: rest =>
      if c = ':' then
        match scanValue fuel rest with
        | (value, none) => ([(name, value)], .cut .malformed, none)
        | (value, some rest) =>
          let (members, ending, rest) := scanMembers fuel false rest
          ((name, value) :: members, ending, rest)
      else ([(name, .broken (.absent .malformed))], .cut .malformed, none)

end

/-- Each character takes at most three steps. -/
def enoughFuel (text : List Char) : Nat :=
  3 * text.length + 3

/-- The value of a whole text, and the fault of what follows it if anything but blanks does. -/
def ofText (text : List Char) : Node × Option Fault :=
  match scanValue (enoughFuel text) text with
  | (node, none) => (node, none)
  | (node, some rest) => (node, if skipBlanks rest = [] then none else some .malformed)

end Node

end DocumentCommand.Json
