/-
**Notices.**

The writer, the verifier and the commands report on their progress by notices.

Main definitions:

* `Roster.Notice` — a notice, with its level `Notice.level` and its wording `Notice.message`.
-/

import Roster.Dataset.Report
import Roster.Path

set_option relaxedAutoImplicit false
set_option autoImplicit false

namespace Roster

open Json

/-- How important a notice is. -/
inductive Level where
  | debug
  | info
  | warn
  deriving DecidableEq, Inhabited, Repr

def Level.name : Level → String
  | debug => "DEBUG"
  | info => "INFO"
  | warn => "WARN"

inductive Notice where
  | generating (path : Path) (count : Nat) (style : Style) (atomic : Bool)
  | staging (path : Path)
  /-- So many persons were written. -/
  | written (rows : Nat)
  | generated (metrics : Metrics)
  | verifying (path : Path) (expected : Nat)
  /-- A value differs in so many fields. -/
  | mismatch (index fields : Nat)
  | verified (rows : Nat)
  | outcome (report : Report)
  /-- So many presets are about to be run. -/
  | running (presets : Nat) (directory : Path)
  | preset (name : String) (metrics : Metrics)

/-- How often progress is reported. -/
def progressInterval : Nat := 10000

namespace Notice

/-- The level of a notice. -/
def level : Notice → Level
  | generating .. | generated .. | verifying .. | running .. | preset .. => .info
  | staging .. | written .. | mismatch .. | verified .. => .debug
  | outcome r => if r.isSuccess then .info else .warn

def message : Notice → String
  | generating path count style atomic =>
    "Generating dataset '" ++ path.text ++ "' with " ++ toString count ++ " records (style="
      ++ style.name ++ ", atomic=" ++ (if atomic then "true" else "false") ++ ")"
  | staging path => "Staging dataset in '" ++ path.text ++ "'"
  | written rows => "Written " ++ toString rows ++ " records"
  | generated m =>
    "Dataset generation complete: " ++ toString m.rows ++ " records, " ++ toString m.bytes
      ++ " bytes in " ++ m.elapsed.text ++ " (" ++ m.rowsPerSecond.fixed2 ++ " rows/sec, "
      ++ m.mibPerSecond.fixed2 ++ " MiB/s)"
  | verifying path expected =>
    "Verifying dataset '" ++ path.text ++ "' against " ++ toString expected ++ " expected records"
  | mismatch index fields =>
    "Record " ++ toString index ++ " has " ++ toString fields ++ " mismatched fields"
  | verified rows => "Verified " ++ toString rows ++ " records"
  | outcome r => r.summary
  | running presets directory =>
    "Running " ++ toString presets ++ " presets into " ++ directory.quoted
  | preset name m =>
    "Preset " ++ name ++ ": " ++ toString m.rows ++ " records, " ++ toString m.bytes
      ++ " bytes in " ++ m.elapsed.text

end Notice

end Roster
