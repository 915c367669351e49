import PoolEnum.Files.Path
import PoolEnum.Files.Storage

/-!
# PoolEnum.Files.Tree

A directory tree as a value, and the storage that it is.

The place of a file or directory is the list of names that leads to it from the
top (`Location`); a tree says what is at each. `Tree.follow` takes the steps of
a path one by one, each of which needs a directory to start from, and
`Tree.target` finds the place that a path offers to a file.

There are no links, so each file has one location. At the top, `..` leads
nowhere else, and an absolute path starts there too; all other paths start at the
tree's workplace.
-/

namespace PoolEnum

/-- The names on the way from the top to a file or directory. -/
abbrev Location := List String

/-- Where a step leads from a directory. -/
def Location.after (here : Location) : Path.Step → Location
  | .root => []
  | .here => here
  | .up => here.dropLast
  | .name text => here ++ [text]

/-- Whether a location comes before another or is it: names are compared one by
one, and what is in a directory comes after it. -/
def Location.notAfter : Location → Location → Bool
  | [], _ => true
  | _ :: _, [] => false
  | a :: as, b :: bs => if a = b then Location.notAfter as bs else a ≤ b

/-- What can be at a location. -/
inductive Node
  | directory
  | file (content : ByteArray)

/-- The files and directories below the top. The first entry of a location
counts. -/
structure Tree where
  entries : List (Location × Node) := []
  /-- The directory that paths start at. -/
  workplace : Location := []

namespace Tree

/-! ## locations -/

/-- What is at a location. The top is always a directory. -/
def at? (t : Tree) (location : Location) : Option Node :=
  if location = [] then some .directory else t.entries.lookup location

/-- The tree with nothing at a location. -/
def erase (t : Tree) (location : Location) : Tree :=
  { t with entries := t.entries.filter fun e => e.1 ≠ location }

/-- The tree with `node` at a location. -/
def put (t : Tree) (location : Location) (node : Node) : Tree :=
  { t with entries := (location, node) :: (t.erase location).entries }

theorem lookup_filter_ne {k location : Location} (h : k ≠ location)
    (entries : List (Location × Node)) :
    (entries.filter fun e => e.1 ≠ location).lookup k = entries.lookup k := by
  induction entries with
  | nil => rfl
  | cons e entries ih =>
    obtain ⟨a, node⟩ := e
    by_cases ha : a = location
    · subst ha
      have hk : (k == a) = false := by simpa using h
      simp only [List.lookup_cons, hk]
      simpa using ih
    · rw [List.filter_cons_of_pos (by simpa using ha)]
      simp only [List.lookup_cons, ih]

/-- What was put is there. -/
theorem at?_put_self (t : Tree) {location : Location} (node : Node) (h : location ≠ []) :
    (t.put location node).at? location = some node := by
  simp [at?, put, h]

/-- All other locations keep what is at them. -/
theorem at?_put_of_ne (t : Tree) {k location : Location} (node : Node) (h : k ≠ location) :
    (t.put location node).at? k = t.at? k := by
  have hk : (k == location) = false := by simpa using h
  simp only [at?, put, erase, List.lookup_cons, hk]
  rw [lookup_filter_ne h]

/-- A location, if there is a directory at it. -/
def enter (t : Tree) (location : Location) : Except FileFault Location :=
  match t.at? location with
  | some .directory => .ok location
  | some (.file _) => .error .notDirectory
  | none => .error .notFound

/-! ## paths -/

/-- Where one step leads from a location, which has to be that of a directory. -/
def step (t : Tree) (here : Location) (s : Path.Step) : Except FileFault Location :=
  match t.enter here, s with
  | .error fault, _ => .error fault
  | .ok here, .name text =>
    if Path.maxNameSize < text.utf8ByteSize then .error .nameTooLong
    else .ok (Location.after here (.name text))
  | .ok here, s => .ok (Location.after here s)

/-- Where steps lead from a location. Nothing need be at the end of them. -/
def follow (t : Tree) (here : Location) : List Path.Step → Except FileFault Location
  | [] => .ok here
  | s :: steps =>
    match t.step here s with
    | .ok here => t.follow here steps
    | .error fault => .error fault

/-- Where a path leads. The empty path leads nowhere. -/
def locate (t : Tree) (path : String) : Except FileFault Location :=
  if Path.hasNul path then .error .nulCharacter
  else if path = "" then .error .notFound
  else if Path.maxSize < path.utf8ByteSize then .error .nameTooLong
  else t.follow t.workplace (Path.walk path)

/-- Where a file goes that is moved to a path: the last step has to be a name in
a directory, and not the name of a directory. -/
def target (t : Tree) (path : String) : Except FileFault Location :=
  if Path.hasNul path then .error .invalidArgument
  else if Path.maxSize < path.utf8ByteSize then .error .nameTooLong
  else
    let steps := Path.spelled path
    match steps.getLast? with
    | none => .error .notFound
    | some last =>
      match t.follow t.workplace (steps.dropLast ++ [.here]), last with
      | .error fault, _ => .error fault
      | .ok above, .name text =>
        match t.step above (.name text) with
        | .error fault => .error fault
        | .ok location =>
          if Path.endsInSlash path then .error .notDirectory
          else
            match t.at? location with
            | some .directory => .error .isDirectory
            | _ => .ok location
      | .ok _, _ => .error .busy

/-! ## the operations of a storage -/

/-- The bytes of the file that a path leads to. -/
def read (t : Tree) (path : String) : Except FileFault ByteArray :=
  match t.locate path with
  | .error fault => .error fault
  | .ok location =>
    match t.at? location with
    | some (.file content) => .ok content
    | some .directory => .error .isDirectory
    | none => .error .notFound

/-- The names that are tried for a new file, one by one, all of them of one size as
long as there are not too many. -/
def temporaryName (n : Nat) : String :=
  ".tmp" ++ toString (100000 + n)

/-- A name that is not in use in a directory. Of one more names than there are
entries, one is not. -/
def unusedName (t : Tree) (directory : Location) : String :=
  let free (n : Nat) : Bool := (t.at? (directory ++ [temporaryName n])).isNone
  temporaryName (((List.range (t.entries.length + 1)).find? free).getD 0)

/-- The path of the workplace. -/
def workplacePath (t : Tree) : String :=
  "/" ++ "/".intercalate t.workplace

/-- A new, empty file in a directory, under a name that is not in use. Whether the
directory is there shows with the first name; the one that is taken in the end may be
longer and has to fit as well. -/
def create (t : Tree) (directory : String) : Except (FileFault × String) String × Tree :=
  let directory := Path.absolute t.workplacePath directory
  let first := Path.within directory (temporaryName 0)
  match t.locate first with
  | .error fault => (.error (fault, first), t)
  | .ok location =>
    let path := Path.within directory (t.unusedName location.dropLast)
    match t.locate path with
    | .error fault => (.error (fault, path), t)
    | .ok location => (.ok path, t.put location (.file .empty))

/-- Fills the file that a path leads to. -/
def write (t : Tree) (path : String) (content : ByteArray) : Except FileFault Unit × Tree :=
  match t.target path with
  | .error fault => (.error fault, t)
  | .ok location => (.ok (), t.put location (.file content))

/-- Moves a file to another path. -/
def rename (t : Tree) (source target : String) : Except FileFault Unit × Tree :=
  match t.locate source, t.target target with
  | .error fault, _ => (.error fault, t)
  | _, .error fault => (.error fault, t)
  | .ok old, .ok new =>
    match t.at? old with
    | some (.file content) => (.ok (), (t.erase old).put new (.file content))
    | some .directory => (.error .isDirectory, t)
    | none => (.error .notFound, t)

/-- Removes the file that a path leads to. -/
def remove (t : Tree) (path : String) : Tree :=
  match t.locate path with
  | .ok location => t.erase location
  | .error _ => t

/-- Trees as a place where files are kept. -/
def storage : Storage (StateM Tree) where
  read path := fun t => (t.read path, t)
  create directory := fun t => t.create directory
  write path content := fun t => t.write path content
  rename source target := fun t => t.rename source target
  remove path := fun t => ((), t.remove path)

/-! ## making and showing trees -/

/-- A directory at the end of some steps, and every directory on the way. -/
def makeWay (t : Tree) (here : Location) : List Path.Step → Tree
  | [] => t
  | step :: steps =>
    let next := Location.after here step
    let t := if (t.at? next).isSome then t else t.put next .directory
    t.makeWay next steps

/-- The tree with a directory at a path, and every directory on the way. -/
def makeDirectories (t : Tree) (path : String) : Tree :=
  t.makeWay t.workplace (Path.walk path)

/-- A tree with nothing but the directories on the way to a workplace. -/
def ofWorkplace (workplace : Location) : Tree :=
  ({ workplace } : Tree).makeWay [] (workplace.map .name)

/-- The entries below the workplace from the first name to the last, a directory
before what is in it. Their locations start at the workplace. -/
def listing (t : Tree) : List (Location × Node) :=
  let below := t.entries.filter fun e => t.workplace.isPrefixOf e.1 && e.1 ≠ t.workplace
  (below.map fun e => (e.1.drop t.workplace.length, e.2)).mergeSort fun a b =>
    Location.notAfter a.1 b.1

end Tree

end PoolEnum
