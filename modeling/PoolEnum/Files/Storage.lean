import PoolEnum.Files.Fault

/-!
# PoolEnum.Files.Storage

What a run asks of the place where its files are: five operations, in any
monad. A directory tree in memory offers them (`PoolEnum.Files.Tree`), and so
does the command's own file system, so what is shown of a run on trees is shown
of the very program that the command runs.
-/

namespace PoolEnum

/-- A place where files are kept. Paths are relative to one directory of it. -/
structure Storage (m : Type → Type) where
  /-- The bytes of a file. -/
  read (path : String) : m (Except FileFault ByteArray)
  /-- The path of a new, empty file in a directory; if it cannot be made, why
  not, and the path that was tried. -/
  create (directory : String) : m (Except (FileFault × String) String)
  /-- Fills a file that is there. -/
  write (path : String) (content : ByteArray) : m (Except FileFault Unit)
  /-- Moves a file to another path, over the file that is there. -/
  rename (source target : String) : m (Except FileFault Unit)
  /-- Removes a file that is there. -/
  remove (path : String) : m Unit

/-- The text of a file, if its bytes are UTF-8. -/
def Storage.readText {m : Type → Type} [Monad m] (s : Storage m) (path : String) :
    m (Except FileFault String) := do
  match ← s.read path with
  | .error fault => return .error fault
  | .ok bytes =>
    match String.fromUTF8? bytes with
    | some text => return .ok text
    | none => return .error .notText

end PoolEnum
