/-
**Why a file operation is refused.**

Main definitions:

* `Roster.FileError` — the causes, with their wording `FileError.message`;
* `Roster.FileFault` — a cause, for a staging file together with its path.
-/

import Roster.Path

set_option relaxedAutoImplicit false
set_option autoImplicit false

namespace Roster

/-- Why a file operation is refused. -/
inductive FileError where
  | notFound
  | alreadyExists
  /-- The file is in use as a mount point or working directory. -/
  | busy
  | notDirectory
  | isDirectory
  /-- The name of the file is malformed. -/
  | invalidArgument
  | fileTooLarge
  | noSpace
  | nameTooLong
  /-- Symbolic links lead to too many others. -/
  | tooManyLinks
  | zeroByte
  /-- The content is not UTF-8. -/
  | notText
  /-- Any other cause, in its own words. -/
  | other (text : String)
  deriving DecidableEq, Inhabited, Repr

def FileError.message : FileError → String
  -- the causes that the system gives carry their numbers
  | notFound => "No such file or directory (os error 2)"
  | alreadyExists => "File exists (os error 17)"
  | busy => "Device or resource busy (os error 16)"
  | notDirectory => "Not a directory (os error 20)"
  | isDirectory => "Is a directory (os error 21)"
  | invalidArgument => "Invalid argument (os error 22)"
  | fileTooLarge => "File too large (os error 27)"
  | noSpace => "No space left on device (os error 28)"
  | nameTooLong => "File name too long (os error 36)"
  | tooManyLinks => "Too many levels of symbolic links (os error 40)"
  | zeroByte => "file name contained an unexpected NUL byte"
  | notText => "stream did not contain valid UTF-8"
  | other text => text

/-- A refused operation; if it concerned a staging file, with the path of that file. -/
structure FileFault where
  cause : FileError
  /-- The path of the staging file. -/
  staging : Option Path := none
  deriving DecidableEq, Inhabited, Repr

def FileFault.message (e : FileFault) : String :=
  match e.staging with
  | none => e.cause.message
  | some p => e.cause.message ++ " at path " ++ p.quoted

end Roster
