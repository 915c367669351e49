import PoolEnum.Command.Outcome

/-!
# PoolEnum.Main

The command on the files of the platform. Everything it decides is decided in
`PoolEnum.Command.execute`; here are only the five operations of a storage, the
environment and the two streams.
-/

namespace PoolEnum

/-- A fault by the number and the words that the platform has for it. -/
def FileFault.ofNumber (number : UInt32) (words : String) : FileFault :=
  if number = 2 then .notFound
  else if number = 16 then .busy
  else if number = 20 then .notDirectory
  else if number = 21 then .isDirectory
  else if number = 22 then .invalidArgument
  else if number = 36 then .nameTooLong
  else .other (words ++ " (os error " ++ toString number.toNat ++ ")")

/-- A fault by what was thrown. -/
def FileFault.ofError : IO.Error → FileFault
  | .noFileOrDirectory _ number words => .ofNumber number words
  | .inappropriateType _ number words => .ofNumber number words
  | .resourceBusy number words => .ofNumber number words
  | .permissionDenied _ number words => .ofNumber number words
  | .alreadyExists _ number words => .ofNumber number words
  | .invalidArgument _ number words => .ofNumber number words
  | .resourceExhausted _ number words => .ofNumber number words
  | error => .other (toString error)

/-! ## the platform's files -/

namespace Platform

/-- Does something that may throw. -/
def attempt {α : Type} (action : IO α) : IO (Except FileFault α) := do
  try
    return .ok (← action)
  catch error =>
    return .error (.ofError error)

/-- A name that nobody else is likely to use. -/
def randomName : IO String := do
  let letters ← (List.replicate 6 ()).mapM fun _ => do
    return Char.ofNat ('a'.toNat + (← IO.rand 0 25))
  return ".tmp" ++ String.ofList letters

/-- Makes a new file in the directory at an absolute path, with as many tries at a
name that is not in use. -/
def create (directory : String) : Nat → IO (Except (FileFault × String) String)
  | 0 => return .error (.other "too many temporary files exist", directory)
  | tries + 1 => do
    let path := Path.within directory (← randomName)
    if Path.hasNul path then return .error (.nulCharacter, path)
    try
      let _ ← IO.FS.Handle.mk path .writeNew
      return .ok path
    catch
      | .alreadyExists .. => create directory tries
      | error => return .error (.ofError error, path)

/-- The platform as a place where files are kept. -/
def storage : Storage IO where
  read path :=
    if Path.hasNul path then return .error .nulCharacter
    else attempt (IO.FS.readBinFile path)
  create directory := do
    create (Path.absolute (toString (← IO.currentDir)) directory) 1000
  write path content := attempt (IO.FS.writeBinFile path content)
  rename source target := attempt (IO.FS.rename source target)
  remove path := do
    let _ ← attempt (IO.FS.removeFile path)

end Platform

end PoolEnum

/-- The command: its arguments and its exit status. -/
def main (arguments : List String) : IO UInt32 := do
  let logRequest ← IO.getEnv "RUST_LOG"
  let outcome ← PoolEnum.Command.execute arguments logRequest PoolEnum.Platform.storage
  IO.print outcome.output
  for line in outcome.messages do
    IO.eprintln line
  return UInt32.ofNat outcome.exit
