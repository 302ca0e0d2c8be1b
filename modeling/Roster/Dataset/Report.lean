/-
**Reports.**

A run of the writer is summed up by its metrics, a run of the verifier by a report: how many
persons were expected and found, how many of those found were right, and, for the first few of the
others, in which fields they differ.

Main definitions:

* `Roster.Metrics` — what a run of the writer has done;
* `Roster.Difference` — one field in which a person differs from the expected one;
* `Roster.differences` — **all differences between a person and a value**;
* `Roster.Report` — the outcome of a verification, and `Report.add`, one step of it;
* `Roster.Report.summary` — the report in one line.
-/

import Roster.Dataset.Writer
import Roster.Elapsed

set_option relaxedAutoImplicit false
set_option autoImplicit false

namespace Roster

open Json

/-! ### Metrics -/

/-- What a run of the writer has done.  The time is that of whoever has a clock; where there is
none it is zero.  The numbers are at most that of the persons that exist and the length of a file. -/
structure Metrics where
  rows : Nat
  bytes : Nat
  /-- How long it took. -/
  elapsed : Elapsed := {}
  deriving DecidableEq, Inhabited, Repr

def Metrics.rowsPerSecond (m : Metrics) : Double := Elapsed.rate m.rows m.elapsed

/-- Units of 2 ^ 20 bytes per second. -/
def Metrics.mibPerSecond (m : Metrics) : Double :=
  (Elapsed.rate m.bytes m.elapsed).div (Double.ofNat 1048576)

/-! ### Differences -/

/-- A field in which a value differs from the expected person. -/
structure Difference where
  /-- The key of the field; empty if the value is no object at all. -/
  field : String
  expected : String
  /-- What was found: the compact text of the value. -/
  actual : String
  deriving DecidableEq, Inhabited, Repr

/-- How the value of one field differs from the expected text. -/
def fieldDifference? (key expected : String) (members : List (String × Value)) :
    Option Difference :=
  match lookup key members with
  | none => some ⟨key, expected, "<missing>"⟩
  | some (.string s) =>
    if s = expected then none else some ⟨key, expected, (Value.string s).compact⟩
  | some v => some ⟨key, expected, v.compact⟩

/-- The members under keys that are not those of a field. -/
def extraDifferences (members : List (String × Value)) : List Difference :=
  (members.filter fun m => !Field.keys.contains m.1).map fun m =>
    ⟨m.1, "<absent>", m.2.compact⟩

/-- **All differences between a person and a value**: the fields that are missing or have another
value, in the order of the fields, then the members that no field has. -/
def differences (p : Person) : Value → List Difference
  | .object members =>
    p.fields.filterMap (fun f => fieldDifference? f.1 f.2 members) ++ extraDifferences members
  | v => [⟨"", "object", v.compact⟩]

/-! ### Reports -/

/-- A position whose value differs from its person. -/
structure Row where
  index : Nat
  differences : List Difference
  deriving DecidableEq, Inhabited, Repr

/-- The outcome of a verification.  Counters of 64 bits show the same numbers as long as fewer than
2 ^ 64 persons are expected and fewer than 2 ^ 64 values are found. -/
structure Report where
  expected : Nat
  found : Nat := 0
  /-- How many of them were right. -/
  matched : Nat := 0
  /-- How many of them were not. -/
  mismatched : Nat := 0
  /-- The first of those that were not. -/
  rows : List Row := []
  elapsed : Elapsed := {}
  deriving DecidableEq, Inhabited, Repr

namespace Report

/-- How many rows are kept. -/
def maxRows : Nat := 10

/-- The file holds the expected persons and nothing else. -/
def isSuccess (r : Report) : Bool := r.found = r.expected && r.mismatched = 0

/-- How many persons are missing at the end. -/
def missing (r : Report) : Nat := r.expected - r.found

/-- How many values there are beyond the expected ones. -/
def unexpected (r : Report) : Nat := r.found - r.expected

def rowsPerSecond (r : Report) : Double := Elapsed.rate r.found r.elapsed

/-- The report in one line. -/
def summary (r : Report) : String :=
  if r.isSuccess then
    "Verification PASSED: " ++ toString r.matched ++ " records matched in " ++ r.elapsed.text
      ++ " (" ++ r.rowsPerSecond.fixed2 ++ " rows/sec)"
  else
    "Verification FAILED: expected " ++ toString r.expected ++ ", found " ++ toString r.found
      ++ " (missing " ++ toString r.missing ++ ", unexpected " ++ toString r.unexpected ++ "), "
      ++ toString r.mismatched ++ " mismatched"

/-- The differences of the value at the current position: from the expected person, or, if there
can be no such person, in its identifier. -/
def differencesAt (expected : Except Overflow (Person × Sequence)) (v : Value) :
    List Difference :=
  match expected with
  | .ok (p, _) => differences p v
  | .error e => [⟨"@id", e.message, ((v.get? "@id").map Value.compact).getD ""⟩]

/-- The report after one more value, with its differences. -/
def add (r : Report) (ds : List Difference) : Report :=
  let r' := { r with found := r.found + 1 }
  if ds.isEmpty then { r' with matched := r.matched + 1 }
  else
    { r' with
      mismatched := r.mismatched + 1
      rows := if r.rows.length < maxRows then r.rows ++ [⟨r.found, ds⟩] else r.rows }

end Report

end Roster
