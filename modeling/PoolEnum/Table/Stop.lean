import PoolEnum.Mismatch

/-!
# PoolEnum.Table.Stop

Why and where reading a string table stops short.

A reader that stops says which part of the text it had not read yet, and how
many bytes of that part the place it complains about reaches into: none if it
complains about what it just read, one if it complains about what comes next.
`Stop.fault` turns that into a line and a column of the whole text, both counted
in bytes.
-/

namespace PoolEnum.Table

/-- What is wrong with a table. -/
inductive Cause
  | endOfList
  | endOfObject
  | endOfString
  | endOfValue
  | expectedColon
  | expectedListCommaOrEnd
  | expectedObjectCommaOrEnd
  | expectedWord
  | expectedValue
  | invalidEscape
  | invalidNumber
  | numberOutOfRange
  | controlCharacter
  | keyNotString
  | loneSurrogate
  | unpairedSurrogate
  | trailingComma
  | trailingCharacters
  | mismatch (m : Mismatch)
  | shortEntry (length : Nat)
  | missingField (name : String)
  | duplicateField (name : String)
  deriving DecidableEq, Repr

/-- The three kinds of causes. -/
inductive Category
  /-- The text ends too early. -/
  | cutOff
  /-- The text is well formed, but not a table. -/
  | wrongData
  /-- The text is not well formed. -/
  | malformed
  deriving DecidableEq, Repr

namespace Cause

/-- The kind of a cause. -/
def category : Cause → Category
  | endOfList | endOfObject | endOfString | endOfValue => .cutOff
  | mismatch _ | shortEntry _ | missingField _ | duplicateField _ => .wrongData
  | _ => .malformed

/-- The cause in words. -/
def message : Cause → String
  | endOfList => "EOF while parsing a list"
  | endOfObject => "EOF while parsing an object"
  | endOfString => "EOF while parsing a string"
  | endOfValue => "EOF while parsing a value"
  | expectedColon => "expected " ++ marked ":"
  | expectedListCommaOrEnd => "expected " ++ marked "," ++ " or " ++ marked "]"
  | expectedObjectCommaOrEnd => "expected " ++ marked "," ++ " or " ++ marked "\x7d"
  | expectedWord => "expected ident"
  | expectedValue => "expected value"
  | invalidEscape => "invalid escape"
  | invalidNumber => "invalid number"
  | numberOutOfRange => "number out of range"
  | controlCharacter => "control character (\\u0000-\\u001F) found while parsing a string"
  | keyNotString => "key must be a string"
  | loneSurrogate => "lone leading surrogate in hex escape"
  | unpairedSurrogate => "unexpected end of hex escape"
  | trailingComma => "trailing comma"
  | trailingCharacters => "trailing characters"
  | mismatch m => m.message
  | shortEntry n => "invalid length " ++ toString n ++ ", expected struct Entry with 2 elements"
  | missingField name => "missing field " ++ marked name
  | duplicateField name => "duplicate field " ++ marked name

end Cause

/-! ## places -/

/-- A place in a text: lines from one on, columns in bytes from zero on. -/
structure Position where
  line : Nat
  column : Nat
  deriving DecidableEq, Repr

/-- The size of characters in bytes. -/
def byteSize (cs : List Char) : Nat :=
  cs.foldr (fun c n => c.utf8Size + n) 0

/-- The place that many bytes further on, at most at the end of the text. The
bytes may end inside a character. -/
def Position.advance (p : Position) : (bytes : Nat) → List Char → Position
  | 0, _ => p
  | _, [] => p
  | bytes + 1, c :: cs =>
    if c = '\n' then Position.advance { line := p.line + 1, column := 0 } bytes cs
    else if bytes < c.utf8Size then { p with column := p.column + bytes + 1 }
    else Position.advance { p with column := p.column + c.utf8Size }
      (bytes + 1 - c.utf8Size) cs

/-- Why a reader stopped, what it had not read, and how far into that the place
of the fault lies. -/
structure Stop where
  cause : Cause
  unread : List Char
  bytes : Nat
  deriving DecidableEq, Repr

namespace Stop

/-- A complaint about what was just read. -/
def here (cause : Cause) (unread : List Char) : Stop :=
  { cause, unread, bytes := 0 }

/-- A complaint about the byte that comes next. -/
def next (cause : Cause) (unread : List Char) : Stop :=
  { cause, unread, bytes := 1 }

end Stop

/-- A fault of a table and its place. -/
structure Fault where
  cause : Cause
  position : Position
  deriving DecidableEq, Repr

/-- The place of a stop in the text that was read. -/
def Stop.fault (s : Stop) (text : List Char) : Fault :=
  let start : Position := { line := 1, column := 0 }
  { cause := s.cause
    position := start.advance (byteSize text - byteSize s.unread + s.bytes) text }

/-- The fault in words. -/
def Fault.message (f : Fault) : String :=
  f.cause.message ++ " at line " ++ toString f.position.line ++ " column " ++
    toString f.position.column

/-- The outcome of reading something off the front of a text: the thing and the
rest of the text, or why that failed. -/
abbrev Reading (α : Type) := Except Stop (α × List Char)

end PoolEnum.Table
