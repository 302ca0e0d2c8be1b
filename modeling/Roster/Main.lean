/-
**The program.**

The files of the machine are one more disk.  The program reads its command line, runs the command
on that disk, and shows what it has to show.

The permission bits of a file cannot be asked for here.  A staged dataset that would have to take
them over from the file at its destination is therefore refused, and the file is left alone.

Main definitions:

* `Roster.Machine.fileError` — the causes of the system;
* `main` — the program.
-/

import Roster.Command.Arguments

set_option relaxedAutoImplicit false
set_option autoImplicit false

namespace Roster

namespace Machine

/-- The cause that the system gives by its number, with the text for any other. -/
def numbered (text : String) (code : UInt32) : FileError :=
  match code.toNat with
  | 2 => .notFound
  | 16 => .busy
  | 17 => .alreadyExists
  | 20 => .notDirectory
  | 21 => .isDirectory
  | 22 => .invalidArgument
  | 27 => .fileTooLarge
  | 28 => .noSpace
  | 36 => .nameTooLong
  | 40 => .tooManyLinks
  | n => .other (text ++ " (os error " ++ toString n ++ ")")

/-- The cause of a refused operation. -/
def fileError : IO.Error → FileError
  | .alreadyExists _ code text => numbered text code
  | .otherError code text => numbered text code
  | .resourceBusy code text => numbered text code
  | .resourceVanished code text => numbered text code
  | .unsupportedOperation code text => numbered text code
  | .hardwareFault code text => numbered text code
  | .unsatisfiedConstraints code text => numbered text code
  | .illegalOperation code text => numbered text code
  | .protocolError code text => numbered text code
  | .timeExpired code text => numbered text code
  | .interrupted _ code text => numbered text code
  | .noFileOrDirectory _ code text => numbered text code
  | .invalidArgument _ code text => numbered text code
  | .permissionDenied _ code text => numbered text code
  | .resourceExhausted _ code text => numbered text code
  | .inappropriateType _ code text => numbered text code
  | .noSuchThing _ code text => numbered text code
  | .unexpectedEof => .other "unexpected end of file"
  | .userError text => .other text

/-- The outcome of an operation of the system. -/
def attempt {α : Type} (act : IO α) : IO (Except FileError α) := do
  try return .ok (← act)
  catch e => return .error (fileError e)

/-- What the system knows of the file that a path leads to. -/
def metadata (path : Path) : IO (Except FileError IO.FS.Metadata) :=
  attempt (do (← IO.FS.realPath path.text).metadata)

/-- Lets an open file keep its permission bits where there is no file to take others from. -/
def adoptMode (path : Path) : IO (Except FileError Unit) := do
  match ← metadata path with
  | .error _ => return .ok ()
  | .ok _ => return .error (.other "the permission bits of the old file cannot be read")

/-- Adds bytes to an open file.  What the system refuses stays in the handle, which tries once more
when it is closed, so nothing is left to the caller. -/
def write (h : IO.FS.Handle) (bytes : ByteArray) : IO (Except (Stop FileError Nat) Unit) := do
  match ← attempt (do h.write bytes; h.flush) with
  | .ok () => return .ok ()
  | .error e => return .error ⟨e, bytes.size⟩

/-- Makes a file under a staging name that is free, trying so many names. -/
def makeStaging (directory : Path) : Nat → IO (IO.FS.Handle × Path)
  | 0 => throw (IO.userError "no free name")
  | tries + 1 => do
    let path := directory.join ⟨Store.stagingName (← IO.rand 0 999999)⟩
    try return (← IO.FS.Handle.mk path.text .writeNew, path)
    catch e =>
      if fileError e = .alreadyExists then makeStaging directory tries else throw e

/-- Makes a staging file in a directory. -/
def stage (directory : Path) : IO (Except FileFault (IO.FS.Handle × Path)) := do
  let here := (← IO.currentDir).toString
  let directory := Path.join ⟨here⟩ directory
  match ← attempt (makeStaging directory 100) with
  | .ok r => return .ok r
  | .error e => return .error ⟨e, some (directory.join ⟨Store.stagingName 0⟩)⟩

/-- The content of a file. -/
def content (path : Path) : IO (Except Store.ReadError ByteArray) := do
  match ← attempt (IO.FS.Handle.mk path.text .read) with
  | .error e => return .error (.opening e)
  | .ok h =>
    match ← attempt h.readBinToEnd with
    | .error e => return .error (.reading e)
    | .ok bytes => return .ok bytes

end Machine

open Machine in
instance : Disk IO where
  Handle := IO.FS.Handle
  create p := attempt (IO.FS.Handle.mk p.text .write)
  stage := Machine.stage
  adoptMode _ p := Machine.adoptMode p
  write := Machine.write
  publish _ staging p := attempt (IO.FS.rename staging.text p.text)
  discard _ staging := try IO.FS.removeFile staging.text catch _ => return
  size p := return (← Machine.metadata p).map (·.byteSize.toNat)
  content := Machine.content
  makeDirectories p := attempt (IO.FS.createDirAll p.text)
  note _ := return

/-- The variables of the environment that options can come from. -/
def environment : IO (String → Option String) := do
  let directory ← IO.getEnv "GENDATA_OUTPUT_DIR"
  let file ← IO.getEnv "GENDATA_PRESET_FILE"
  return fun name =>
    if name = "GENDATA_OUTPUT_DIR" then directory
    else if name = "GENDATA_PRESET_FILE" then file
    else none

end Roster

open Roster in
/-- The program: exits with 2 if the command line is wrong, and with 1 if the command fails. -/
def main (args : List String) : IO UInt32 := do
  match Arguments.parse (← environment) args with
  | .error e =>
    IO.eprintln ("error: " ++ e.message)
    return 2
  | .ok .help =>
    IO.print Arguments.helpText
    return 0
  | .ok (.command c) =>
    match ← (c.run : IO (Except CommandError String)) with
    | .error e =>
      IO.eprintln ("Error: " ++ e.message)
      return 1
    | .ok text =>
      IO.print text
      return 0
