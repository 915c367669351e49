import PoolEnum.Name.Basic
import PoolEnum.Text.Blank

/-!
# PoolEnum.Name.Derive

From the text of a pool entry to its symbolic name.

`derive` trims the text, keeps what follows its last slash and hands that to
`normalize`, which

* names the empty text `emptyName`,
* puts an underscore before a leading digit,
* spells every per cent sign as `formatMarker`,
* writes each run of other characters as one underscore (`squeeze`), and
* keeps the first `maxNameLength` characters (`shorten`), noting whether any
  were lost.
-/

namespace PoolEnum

/-- The name of a text that is empty after trimming and cutting. -/
def emptyName : String := "empty"

/-- What a per cent sign is spelled as. -/
def formatMarker : List Char := ['F', 'M', 'T', '_']

/-- A symbolic name, and whether characters were cut off to make it fit. -/
structure Derived where
  name : String
  truncated : Bool
  deriving DecidableEq, Repr

/-! ## spelling -/

/-- The underscore that keeps a name from beginning with a digit. -/
def digitGuard : List Char → List Char
  | [] => []
  | c :: _ => if c.isDigit then ['_'] else []

/-- Every per cent sign spelled out. -/
def expandMarks (cs : List Char) : List Char :=
  cs.flatMap fun c => if c = '%' then formatMarker else [c]

/-- One pass over the text that writes each run of characters outside a word as
one underscore. `inRun` tells that the run before `cs` has its underscore
already. -/
def squeeze (inRun : Bool) : List Char → List Char
  | [] => []
  | c :: cs =>
    if isWordChar c then c :: squeeze false cs
    else if inRun then squeeze true cs
    else '_' :: squeeze true cs

/-- The whole spelling of a text, before it is cut to length. -/
def spell (text : List Char) : List Char :=
  digitGuard text ++ squeeze false (expandMarks text)

/-! ## cutting to length -/

/-- The first `maxNameLength` characters of a spelling, blanks at its ends
apart. Something was lost iff the name is the shorter text, and size in bytes
tells that as well as length does. -/
def shorten (spelling : List Char) : Derived :=
  let full := trim spelling
  let name := String.ofList (full.take maxNameLength)
  { name, truncated := name.utf8ByteSize < (String.ofList full).utf8ByteSize }

/-- The symbolic name of a text as it stands. -/
def normalizeTracked (text : List Char) : Derived :=
  if text.isEmpty then { name := emptyName, truncated := false }
  else shorten (spell text)

/-- The symbolic name of a text as it stands, cut or not. -/
def normalize (text : String) : String :=
  (normalizeTracked text.toList).name

/-! ## whole values -/

/-- What follows the last slash; all of a text that has none. -/
def lastSegment (cs : List Char) : List Char :=
  (cs.reverse.takeWhile (· ≠ '/')).reverse

/-- The symbolic name of a pool entry's text, which may be written as a path:
only its last segment counts. -/
def derive (raw : String) : Derived :=
  normalizeTracked (lastSegment (trim raw.toList))

/-- The symbolic name of a pool entry's text, cut or not. -/
def deriveName (raw : String) : String :=
  (derive raw).name

end PoolEnum
