import PoolEnum.Text.Pieces

/-!
# PoolEnum.Files.Path

Paths are text with slashes. What a path means is the list of its steps:
repeated slashes, a slash at the end and the step `.` anywhere but at the start
make no difference to it.

`walk` keeps more: it is what a file system follows, where a slash at the end
asks for a directory, and so does a final `.`. File systems also bound the size
of names and of whole paths.
-/

namespace PoolEnum.Path

/-- One step of a path. -/
inductive Step
  /-- The leading slash of an absolute path. -/
  | root
  /-- The leading `.` of a relative path. -/
  | here
  /-- The directory above. -/
  | up
  /-- An entry of the directory. -/
  | name (text : String)
  deriving DecidableEq, Repr

/-- Whether a path starts at the root. -/
def isAbsolute (path : String) : Bool :=
  path.toList.head? == some '/'

/-- A piece as a step, if it makes one: the empty piece and `.` make none. -/
def Step.ofPiece (piece : List Char) : Option Step :=
  if piece = [] ∨ piece = ['.'] then none
  else if piece = ['.', '.'] then some .up
  else some (.name (String.ofList piece))

/-- What a path means. -/
def steps (path : String) : List Step :=
  let parts := pieces '/' path.toList
  let lead : List Step :=
    if isAbsolute path then [.root]
    else if parts.head? = some ['.'] then [.here]
    else []
  lead ++ parts.filterMap Step.ofPiece

/-- The pieces of a path from the last to the first, without those before its last
step that make none. The first piece counts as one. -/
def dropIdle : List (List Char) → List (List Char)
  | [] => []
  | [piece] => [piece]
  | piece :: rest => if (Step.ofPiece piece).isNone then dropIdle rest else piece :: rest

/-- The directory that a path's last step is looked up in, as it is written; `.` if
the path does not name one. -/
def directory (path : String) : String :=
  match dropIdle (pieces '/' path.toList).reverse with
  | _ :: piece :: rest =>
    match dropIdle (piece :: rest) with
    | [[]] => "/"
    | above => "/".intercalate (above.reverse.map String.ofList)
  | _ => "."

/-- A piece as a step, if it makes one for a file system, where `.` counts. -/
def Step.ofSpelledPiece (piece : List Char) : Option Step :=
  if piece = ['.'] then some .here else Step.ofPiece piece

/-- The steps that a path spells out, every `.` among them. -/
def spelled (path : String) : List Step :=
  let lead : List Step := if isAbsolute path then [.root] else []
  lead ++ (pieces '/' path.toList).filterMap Step.ofSpelledPiece

/-- Whether a path asks for a directory by a slash at its end. -/
def endsInSlash (path : String) : Bool :=
  path.toList.getLast? == some '/'

/-- The steps that a file system takes to follow a path. -/
def walk (path : String) : List Step :=
  spelled path ++ if endsInSlash path then [.here] else []

/-- How many bytes a name may have. -/
def maxNameSize : Nat := 255

/-- How many bytes a path may have. -/
def maxSize : Nat := 4095

/-- Whether a path has a NUL character in it, which no file system takes. -/
def hasNul (path : String) : Bool :=
  path.toList.contains '\x00'

/-- The path of an entry of a directory. -/
def within (directory name : String) : String :=
  if endsInSlash directory then directory ++ name else directory ++ "/" ++ name

/-- A path that means the same wherever it is followed, if `path` is to be followed
from the directory at `start`. -/
def absolute (start path : String) : String :=
  if isAbsolute path then path else within start path

end PoolEnum.Path
