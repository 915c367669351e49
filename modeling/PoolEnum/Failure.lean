import PoolEnum.Files.Fault
import PoolEnum.Registry
import PoolEnum.Settings.Document
import PoolEnum.Table.Stop

/-!
# PoolEnum.Failure

Why a run failed, in words: what went wrong, and below it what that came from.
-/

namespace PoolEnum

/-- Why a run failed. -/
inductive Failure
  /-- A file could not be read or written. -/
  | file (path : String) (fault : FileFault)
  /-- The file that was to become the one at `path` could not be made. -/
  | staging (path : String) (fault : FileFault) (temporary : String)
  /-- The table at `path` is none. -/
  | table (path : String) (fault : Table.Fault)
  /-- A candidate has no free form left. -/
  | exhausted (fault : Exhausted)
  /-- The settings are no good. -/
  | settings (fault : DocumentFault)
  deriving DecidableEq, Repr

namespace Failure

/-- What a failure came from, if that has words of its own. -/
def origin? : Failure → Option String
  | file _ fault => some fault.message
  | staging _ fault temporary => some (fault.message ++ " at path " ++ quote temporary)
  | table _ fault => some fault.message
  | exhausted _ => none
  | settings _ => none

/-- The failure in words. -/
def message (f : Failure) : String :=
  match f with
  | file path _ => "I/O error on " ++ path ++ ": " ++ f.origin?.getD ""
  | staging path _ _ => "I/O error on " ++ path ++ ": " ++ f.origin?.getD ""
  | table path _ => "Invalid string table " ++ path ++ ": " ++ f.origin?.getD ""
  | exhausted fault =>
    "No free name for '" ++ fault.base ++ "': suffixes _1 to _" ++ toString maxSuffix ++
      " are all taken"
  | settings fault => "Invalid configuration: " ++ fault.message

/-- The failure and what it came from, in words. -/
def chain (f : Failure) : List String :=
  f.message :: f.origin?.toList

end Failure

end PoolEnum
