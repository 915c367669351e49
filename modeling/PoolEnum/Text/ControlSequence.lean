/-!
# PoolEnum.Text.ControlSequence

Texts without the sequences that a terminal takes as commands.

Such a sequence starts with the escape character. The next character tells how it
goes on: up to a final character, to a bell, or to the character that ends strings.
Escape starts anew wherever it stands, and two other characters cancel a sequence.
`State.next` says for each ASCII character what becomes of the sequence and whether
the character is shown nevertheless; other characters matter by their bytes.
-/

namespace PoolEnum

namespace ControlSequence

/-- Where in a sequence a text is. -/
inductive State
  /-- In none. -/
  | ground
  /-- Behind the escape character. -/
  | escape
  /-- In one of two or more characters. -/
  | short
  /-- In one with numbers, behind an opening bracket. -/
  | control
  /-- In one that starts a device's own string: before its numbers, in them, and
  behind them. -/
  | deviceEntry
  | deviceNumbers
  | deviceMarks
  /-- In a string that runs up to a certain byte. -/
  | string
  /-- In a string that runs up to a bell. -/
  | command
  deriving DecidableEq, Repr

/-- Whether a control character only moves what follows on a page. -/
def isMove (c : Char) : Bool :=
  c == '\t' || c == '\n' || c == '\x0c' || c == '\r'

/-- The state behind an escape character and one more. -/
def State.afterEscape (c : Char) : State :=
  if c < '0' then .short
  else if c = '[' then .control
  else if c = ']' then .command
  else if c = 'P' then .deviceEntry
  else if c = 'X' ∨ c = '^' ∨ c = '_' then .string
  else .ground

/-- The state behind a printable character that is not shown. -/
def State.afterPrintable (s : State) (c : Char) : State :=
  match s with
  | .ground => .ground
  | .escape => .afterEscape c
  | .short => if c < '0' then .short else .ground
  | .control => if c < '@' then .control else .ground
  | .deviceEntry =>
    if c < '0' then .deviceMarks else if c < '@' then .deviceNumbers else .string
  | .deviceNumbers =>
    if c < '0' then .deviceMarks else if c < '<' then .deviceNumbers else .string
  | .deviceMarks => if c < '0' then .deviceMarks else .string
  | .string => .string
  | .command => .command

/-- Whether moves are shown in a sequence. -/
def State.showsMoves : State → Bool
  | .ground | .escape | .short | .control => true
  | .deviceEntry | .deviceNumbers | .deviceMarks | .string | .command => false

/-- What an ASCII character makes of a state, and whether it is shown. -/
def State.next (s : State) (c : Char) : State × Bool :=
  if c = '\x1b' then (.escape, false)
  else if c = '\x18' ∨ c = '\x1a' then (.ground, false)
  else if c < ' ' then
    if c = '\x07' ∧ s = .command then (.ground, false) else (s, isMove c && s.showsMoves)
  else if c = '\x7f' then (s, false)
  else (s.afterPrintable c, s = .ground)

/-- Whether a character has the byte that ends strings. -/
def endsStrings (c : Char) : Bool :=
  c.toString.toUTF8.toList.contains 0x9c

/-- The characters that are shown. `showing` tells whether the character before was:
a sequence in which one was shown goes on only behind the next control character. -/
def shown (showing : Bool) (s : State) : List Char → List Char
  | [] => []
  | c :: cs =>
    if '\x7f' < c then
      if showing || s = .ground then c :: shown true .ground cs
      else shown false (if s = .string ∧ endsStrings c then .ground else s) cs
    else if showing && (State.ground.next c).2 then c :: shown true s cs
    else
      let (s, isShown) := s.next c
      if isShown then c :: shown true s cs else shown false s cs

end ControlSequence

/-- A text without control sequences and control characters, save for those that
only move what follows. -/
def printable (text : String) : String :=
  String.ofList (ControlSequence.shown false .ground text.toList)

end PoolEnum
