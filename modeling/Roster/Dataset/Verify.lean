/-
**Verifying a file.**

Main definitions:

* `Roster.verify` — **verifies the dataset in a file**;
* `Roster.VerifyError` — what can go wrong: the file cannot be opened, or its content is no JSON
  array, which includes that it cannot be read.
-/

import Roster.Dataset.Verifier
import Roster.Disk

set_option relaxedAutoImplicit false
set_option autoImplicit false

namespace Roster

open Json

/-- What is wrong with the content of a dataset. -/
inductive ContentError where
  | unreadable (cause : FileError)
  /-- It is not one JSON array; the text says why and where. -/
  | malformed (cause : Cause) (position : Position)
  deriving DecidableEq, Inhabited, Repr

def ContentError.message : ContentError → String
  | unreadable cause => cause.message
  | malformed cause p => cause.message ++ " at " ++ p.text

/-- Why a dataset was not verified. -/
inductive VerifyError where
  | file (path : Path) (cause : FileError)
  | content (path : Path) (error : ContentError)
  deriving DecidableEq, Inhabited, Repr

namespace VerifyError

def message : VerifyError → String
  | file path cause => "IO error on '" ++ path.text ++ "': " ++ cause.message
  | content path error => "Invalid JSON in '" ++ path.text ++ "': " ++ error.message

def chain : VerifyError → List String
  | e@(file _ cause) => [e.message, cause.message]
  | e@(content _ error) => [e.message, error.message]

end VerifyError

/-- **Verifies the dataset in a file** against the first `expected` persons of a template. -/
def verify {m : Type → Type} [Monad m] [Disk m] (t : Template) (path : Path) (expected : Nat) :
    m (Except VerifyError Report) := do
  Disk.note (.verifying path expected)
  match ← Disk.content path with
  | .error (.opening e) => pure (.error (.file path e))
  | .error (.reading e) => pure (.error (.content path (.unreadable e)))
  | .ok content =>
    let content := content.data.toList
    let (notices, result) := verifyContent t expected content
    notices.forM Disk.note
    match result with
    | .error e =>
      pure (.error (.content path (.malformed e.cause (e.position .stream content))))
    | .ok report =>
      Disk.note (.outcome report)
      pure (.ok report)

end Roster
