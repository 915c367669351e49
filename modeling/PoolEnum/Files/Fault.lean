/-!
# PoolEnum.Files.Fault

Why a file could not be read or written.
-/

namespace PoolEnum

/-- What stands in the way of reading or writing a file. -/
inductive FileFault
  /-- There is no such file, or no such directory on the way to it. -/
  | notFound
  /-- There is a directory where a file is needed. -/
  | isDirectory
  /-- There is a file where a directory is needed. -/
  | notDirectory
  /-- The path names no entry of a directory that a file could replace. -/
  | busy
  /-- A name or the whole path is too long. -/
  | nameTooLong
  /-- The path of a file to be opened has a NUL character in it. -/
  | nulCharacter
  /-- The path of a file to be replaced has a NUL character in it. -/
  | invalidArgument
  /-- The bytes of the file are not UTF-8. -/
  | notText
  /-- Something that only the platform knows about, in its words. -/
  | other (text : String)
  deriving DecidableEq, Repr

/-- The fault in words. -/
def FileFault.message : FileFault → String
  | notFound => "No such file or directory (os error 2)"
  | isDirectory => "Is a directory (os error 21)"
  | notDirectory => "Not a directory (os error 20)"
  | busy => "Device or resource busy (os error 16)"
  | nameTooLong => "File name too long (os error 36)"
  | nulCharacter => "file name contained an unexpected NUL byte"
  | invalidArgument => "Invalid argument (os error 22)"
  | notText => "stream did not contain valid UTF-8"
  | other text => text

end PoolEnum
