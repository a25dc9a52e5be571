import DocumentCommand.Json.Numeral
import DocumentCommand.Text.Hex

/-!
# JSON strings

A `Quoted` is a string as it is written: characters and numeric escapes up to the closing quotation
mark or to the place where the text breaks.  A reader that only passes over a string asks whether it
closes and holds no control character as it is (`obstacle?`); one that wants its characters
(`content`) also has to pair up the escapes that stand for halves of a character.  Whoever wants
bytes (`bytes`) takes all of this as it comes.
-/

namespace DocumentCommand.Json

/-- A piece of a string. -/
inductive Piece where
  /-- A character, written as it is or by a short escape. -/
  | char (c : Char)
  /-- A numeric escape of sixteen bits. -/
  | unit (n : Nat)
  /-- A character that has to be escaped and is not. -/
  | bare (c : Char)
deriving DecidableEq, Repr

/-- A string as it is written. -/
structure Quoted where
  pieces : List Piece
  /-- Why it does not close, nothing where it does. -/
  fault : Option Fault
deriving DecidableEq, Repr, Inhabited

namespace Quoted

/-- The character of a short escape. -/
def shortEscape? (c : Char) : Option Char :=
  match c with
  | '"' => some '"'
  | '\\' => some '\\'
  | '/' => some '/'
  | 'b' => some '\x08'
  | 'f' => some '\x0c'
  | 'n' => some '\n'
  | 'r' => some '\r'
  | 't' => some '\t'
  | _ => none

/-- One more piece in front. -/
def cons (p : Piece) (q : Quoted × List Char) : Quoted × List Char :=
  (⟨p :: q.1.pieces, q.1.fault⟩, q.2)

/-- Nothing more, because of a fault. -/
def broken (f : Fault) : Quoted × List Char :=
  (⟨[], some f⟩, [])

/-- The string from behind its opening quotation mark, and what follows its closing one.  A numeric
escape that is cut short is at the end of the text when fewer than four bytes remain. -/
def scan : List Char → Quoted × List Char
  | [] => broken .eof
  | '\\' :: 'u' :: a :: b :: c :: d :: rest =>
    match Text.Hex.natValue? [a, b, c, d] with
    | some n => cons (.unit n) (scan rest)
    | none => broken .malformed
  | '\\' :: 'u' :: few =>
    broken (if (String.ofList few).utf8ByteSize < 4 then .eof else .malformed)
  | ['\\'] => broken .eof
  | '\\' :: e :: rest =>
    match shortEscape? e with
    | some c => cons (.char c) (scan rest)
    | none => broken .malformed
  | c :: rest =>
    if c = '"' then (⟨[], none⟩, rest)
    else cons (if c.toNat < 0x20 then .bare c else .char c) (scan rest)

/-- Is it the first half of a character? -/
def isLead (n : Nat) : Bool := 0xD800 ≤ n && n < 0xDC00

/-- Is it the second half of a character? -/
def isTrail (n : Nat) : Bool := 0xDC00 ≤ n && n < 0xE000

/-- The character of two halves. -/
def paired (lead trail : Nat) : Char :=
  Char.ofNat (0x10000 + (lead - 0xD800) * 0x400 + (trail - 0xDC00))

/-- Why passing over the string fails, if it does. -/
def obstacle? (q : Quoted) : Option Fault :=
  let isBare : Piece → Bool
    | .bare _ => true
    | _ => false
  if q.pieces.any isBare then some .malformed else q.fault

/-- The characters of the pieces; halves of a character stand next to each other and in order. -/
def characters (fault : Option Fault) : List Piece → Except Fault (List Char)
  | [] => match fault with
    | none => .ok []
    | some f => .error f
  | .char c :: rest => (c :: ·) <$> characters fault rest
  | .bare _ :: _ => .error .malformed
  | .unit n :: .unit m :: rest =>
    if isLead n then
      if isTrail m then (paired n m :: ·) <$> characters fault rest else .error .malformed
    else if isTrail n then .error .malformed
    else (Char.ofNat n :: ·) <$> characters fault (.unit m :: rest)
  | .unit n :: rest =>
    if isTrail n then .error .malformed
    else if isLead n then .error (if rest = [] then fault.getD .malformed else .malformed)
    else (Char.ofNat n :: ·) <$> characters fault rest

/-- What the string says, or the first reason why it says nothing. -/
def content (q : Quoted) : Except Fault String :=
  String.ofList <$> characters q.fault q.pieces

/-- The bytes of a single escape.  Half of a character has three of its own, as if it were one. -/
def unitBytes (n : Nat) : List UInt8 :=
  if isLead n || isTrail n then
    [UInt8.ofNat (0xE0 + n / 0x1000), UInt8.ofNat (0x80 + n / 0x40 % 0x40),
      UInt8.ofNat (0x80 + n % 0x40)]
  else String.utf8EncodeChar (Char.ofNat n)

/-- The bytes of the pieces.  Halves of a character that belong together make one. -/
def bytesOf : List Piece → List UInt8
  | [] => []
  | .char c :: rest | .bare c :: rest => String.utf8EncodeChar c ++ bytesOf rest
  | .unit n :: .unit m :: rest =>
    if isLead n && isTrail m then String.utf8EncodeChar (paired n m) ++ bytesOf rest
    else unitBytes n ++ bytesOf (.unit m :: rest)
  | .unit n :: rest => unitBytes n ++ bytesOf rest

/-- The bytes of a string whose reader does not ask for text.  Any character may stand in it as it
is, and halves of characters may stand alone. -/
def bytes (q : Quoted) : Except Fault (List UInt8) :=
  match q.fault with
  | none => .ok (bytesOf q.pieces)
  | some f => .error f

end Quoted

end DocumentCommand.Json
