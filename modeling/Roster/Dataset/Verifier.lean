/-
**Verifying a dataset.**

The verifier reads a content value by value and compares each value with the person of its
position.  It never holds more than one value.  A fault anywhere in the content makes the whole
verification fail, whatever was found before it.

Main definitions:

* `Roster.Verification` — the state between two values: the report so far, the sequence of the
  persons to come, and the notices;
* `Roster.verifyContent` — **the verification of a content**.
-/

import Roster.Dataset.Notice
import Roster.Json.Mismatch

set_option relaxedAutoImplicit false
set_option autoImplicit false

namespace Roster

open Json

/-- The state of a verification between two values. -/
structure Verification where
  report : Report
  /-- The sequence of the persons to come. -/
  sequence : Sequence
  /-- The notices, the last one first. -/
  notices : List Notice := []

namespace Verification

def start (t : Template) (expected : Nat) : Verification :=
  { report := { expected }, sequence := { template := t } }

/-- The notices about a value with some differences, the last one first. -/
def noticesOf (r : Report) (ds : List Difference) : List Notice :=
  (if (r.found + 1) % progressInterval = 0 then [.verified (r.found + 1)] else [])
    ++ (if !ds.isEmpty && r.rows.length < Report.maxRows then
      [.mismatch r.found ds.length] else [])

def step (s : Verification) (v : Value) : Verification :=
  let next := s.sequence.next
  let ds := Report.differencesAt next v
  { report := s.report.add ds
    sequence := match next with
      | .ok (_, sequence) => sequence
      | .error _ => s.sequence
    notices := noticesOf s.report ds ++ s.notices }

end Verification

/-- **The verification of a content**: the notices, in their order, and the report or a fault. -/
def verifyContent (t : Template) (expected : Nat) (content : Bytes) :
    List Notice × Except Fault Report :=
  let start := Verification.start t expected
  match skipBlank content with
  | [] => ([], .error (.onto .endInValue []))
  | b :: rest =>
    if b = 0x5b then
      match foldItems (value (maxDepth - 1)) Verification.step start rest with
      | (s, .error e) => (s.notices.reverse, .error e)
      | (s, .ok rest) =>
        match readEnd rest with
        | .error e => (s.notices.reverse, .error e)
        | .ok () => (s.notices.reverse, .ok s.report)
    else ([], .error (wrongType "a JSON array of person records" b rest))

end Roster
