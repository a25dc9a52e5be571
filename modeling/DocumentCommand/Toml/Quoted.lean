import DocumentCommand.Text.Hex

/-!
# TOML strings

Strings in double quotes know escapes, strings in single quotes do not, and both exist in a form of
three quotes that may run over several lines.  Each reader starts behind the opening quotes and
returns what the string says and what follows its closing quotes.
-/

namespace DocumentCommand.Toml.Quoted

/-- May the character stand in a string or comment as it is? -/
def isPlain (c : Char) : Bool :=
  c == '\t' || (0x20 ≤ c.toNat && c.toNat ≠ 0x7f)

/-- The character of an escape of one letter. -/
def shortEscape? (c : Char) : Option Char :=
  match c with
  | 'b' => some '\x08'
  | 't' => some '\t'
  | 'n' => some '\n'
  | 'f' => some '\x0c'
  | 'r' => some '\r'
  | 'e' => some '\x1b'
  | '"' => some '"'
  | '\\' => some '\\'
  | _ => none

/-- The character of a numeric escape. -/
def ofDigits? (digits : List Char) : Option Char :=
  (Text.Hex.natValue? digits).bind fun n =>
    if h : n.isValidChar then some (Char.ofNatAux n h) else none

/-- The number of digits of a numeric escape. -/
def escapeSize? (c : Char) : Option Nat :=
  match c with
  | 'x' => some 2
  | 'u' => some 4
  | 'U' => some 8
  | _ => none

/-- The character of the escape behind a backslash, and what follows it. -/
def scanEscape? : List Char → Option (Char × List Char)
  | [] => none
  | c :: rest =>
    match escapeSize? c with
    | some size => do
      guard (size ≤ rest.length)
      return (← ofDigits? (rest.take size), rest.drop size)
    | none => (shortEscape? c).map (·, rest)

/-- One more character in front of a string that was read. -/
def prepend (c : Char) (scanned : Option (List Char × List Char)) :
    Option (List Char × List Char) :=
  scanned.map fun (s, rest) => (c :: s, rest)

/-- A string in double quotes. -/
def scanBasic? : List Char → Option (List Char × List Char)
  | [] => none
  | '"' :: rest => some ([], rest)
  | '\\' :: 'x' :: a :: b :: rest =>
    (ofDigits? [a, b]).bind fun c => prepend c (scanBasic? rest)
  | '\\' :: 'u' :: a :: b :: c :: d :: rest =>
    (ofDigits? [a, b, c, d]).bind fun c => prepend c (scanBasic? rest)
  | '\\' :: 'U' :: a :: b :: c :: d :: e :: f :: g :: h :: rest =>
    (ofDigits? [a, b, c, d, e, f, g, h]).bind fun c => prepend c (scanBasic? rest)
  | '\\' :: c :: rest => (shortEscape? c).bind fun c => prepend c (scanBasic? rest)
  | c :: rest => if isPlain c && c != '\\' then prepend c (scanBasic? rest) else none

/-- A string in single quotes. -/
def scanLiteral? : List Char → Option (List Char × List Char)
  | [] => none
  | c :: rest =>
    if c = '\'' then some ([], rest)
    else if isPlain c then prepend c (scanLiteral? rest)
    else none

/-- What follows a line break at the head of a text, the text itself where there is none. -/
def dropBreak : List Char → List Char
  | '\n' :: rest => rest
  | '\r' :: '\n' :: rest => rest
  | text => text

/-- Does the text start with a line break? -/
def startsWithBreak : List Char → Bool
  | '\n' :: _ => true
  | '\r' :: '\n' :: _ => true
  | _ => false

/-- What follows the blanks and line breaks at the head of a text. -/
def dropGap : List Char → List Char
  | [] => []
  | '\r' :: '\n' :: rest => dropGap rest
  | c :: rest => if c = ' ' ∨ c = '\t' ∨ c = '\n' then dropGap rest else c :: rest

/-- The blanks and line breaks that a backslash at the end of a line takes away with it, none
where the backslash does not end its line. -/
def dropFold? (text : List Char) : Option (List Char) :=
  let isBlank (c : Char) : Bool := c == ' ' || c == '\t'
  if startsWithBreak (text.dropWhile isBlank) then
    some (dropGap text)
  else none

/-- The end of a string of several lines at a run of quotes, of which the last three close it and at
most two more belong to it: the quotes that belong to it, and what follows. -/
def scanClosing? (quote : Char) (text : List Char) : Option (List Char × List Char) :=
  let run := (text.takeWhile (· = quote)).take 5
  if 3 ≤ run.length then some (run.drop 3, text.drop run.length) else none

/-- A string of several lines in three quotes, given enough steps.  Escapes are known where the
quotes are double. -/
def scanLines? (quote : Char) : Nat → List Char → Option (List Char × List Char)
  | 0, _ => none
  | fuel + 1, text =>
    let andThen (s rest : List Char) : Option (List Char × List Char) :=
      (scanLines? quote fuel rest).map fun (more, rest) => (s ++ more, rest)
    match scanClosing? quote text with
    | some closing => some closing
    | none =>
      match text with
      | [] => none
      | '\r' :: '\n' :: rest => andThen ['\r', '\n'] rest
      | c :: rest =>
        if c = '\n' then andThen [c] rest
        else if c = '\\' ∧ quote = '"' then
          match dropFold? rest with
          | some rest => andThen [] rest
          | none =>
            match scanEscape? rest with
            | some (c, rest) => andThen [c] rest
            | none => none
        else if isPlain c then andThen [c] rest
        else none

/-- A string of either kind of quotes, one or three of them, from its opening quotes on. -/
def scan? (text : List Char) : Option (String × List Char) :=
  let lines (quote : Char) (rest : List Char) :=
    scanLines? quote (rest.length + 1) (dropBreak rest)
  let scanned := match text with
    | '"' :: '"' :: '"' :: rest => lines '"' rest
    | '"' :: rest => scanBasic? rest
    | '\'' :: '\'' :: '\'' :: rest => lines '\'' rest
    | '\'' :: rest => scanLiteral? rest
    | _ => none
  scanned.map fun (s, rest) => (String.ofList s, rest)

end DocumentCommand.Toml.Quoted
