/-
**Elapsed time and rates.**

A run of the writer or of the verifier is timed in whole nanoseconds.  Its text names the largest
unit in which the time is at least one, with as many decimals as are needed to give it exactly.

Main definitions:

* `Roster.Elapsed` — seconds, and nanoseconds below a second;
* `Roster.Elapsed.text` — the text of a time, such as `1.5s`, `1.234567ms` or `0ns`;
* `Roster.Elapsed.rate` — an amount per second, zero over no time.
-/

import Roster.Double.Text

set_option relaxedAutoImplicit false
set_option autoImplicit false

namespace Roster

/-- A length of time. -/
structure Elapsed where
  seconds : Nat := 0
  /-- The rest, in nanoseconds. -/
  nanos : Nat := 0
  deriving DecidableEq, Inhabited, Repr

namespace Elapsed

/-- The time of some seconds and nanoseconds, whole seconds being carried over. -/
def ofParts (seconds nanos : Nat) : Elapsed :=
  ⟨seconds + nanos / 1000000000, nanos % 1000000000⟩

/-! ### Text -/

/-- The digits of `n` after the point, `width` of them, without the zeros at the end. -/
def fraction : Nat → Nat → String
  | 0, _ => ""
  | width + 1, n =>
    if n = 0 then ""
    else toString (n / Nat.pow 10 width) ++ fraction width (n % Nat.pow 10 width)

/-- `whole` and `n` parts of `10 ^ width`, in some unit. -/
def inUnit (whole width n : Nat) (unit : String) : String :=
  toString whole ++ (if n = 0 then "" else "." ++ fraction width n) ++ unit

/-- The text of a time, in the largest unit in which it is at least one. -/
def text (t : Elapsed) : String :=
  if 0 < t.seconds then inUnit t.seconds 9 t.nanos "s"
  else if 1000000 ≤ t.nanos then inUnit (t.nanos / 1000000) 6 (t.nanos % 1000000) "ms"
  else if 1000 ≤ t.nanos then inUnit (t.nanos / 1000) 3 (t.nanos % 1000) "µs"
  else inUnit t.nanos 0 0 "ns"

/-! ### Rates -/

/-- The time in seconds, as a double: the seconds and the rest are rounded each, then their
sum. -/
def toDouble (t : Elapsed) : Double :=
  (Double.ofNat t.seconds).add (Double.ofRatio t.nanos 1000000000)

/-- An amount per second; over no time at all the rate is zero. -/
def rate (amount : Nat) (t : Elapsed) : Double :=
  let seconds := t.toDouble
  if seconds.isZero then .zero else (Double.ofNat amount).div seconds

end Elapsed

end Roster
