/-
**Decimal texts of doubles.**

Two texts are needed.  The *shortest* one has the fewest digits that read back as the same
double, and of those the nearest to it; the *fixed* one has two places and is the exact value
rounded once.

Main definitions:

* `Roster.Double.shortest` — the digits and the power of ten of the shortest decimal;
* `Roster.Double.fixed2` — the text with two places.
-/

import Roster.Double

set_option relaxedAutoImplicit false
set_option autoImplicit false

namespace Roster

/-- The ratio `num / den` divided by `10 ^ k`, again as numerator and denominator. -/
def scaleDownTen (num den : Nat) (k : Int) : Nat × Nat :=
  match k with
  | .ofNat j => (num, den * Nat.pow 10 j)
  | .negSucc j => (num * Nat.pow 10 (j + 1), den)

/-- The largest `k` with `10 ^ k ≤ num / den`, for positive `num` and `den`: the logarithm to
base two gives it up to one. -/
def floorLog10 (num den : Nat) : Int :=
  -- the ratio is a little more than the logarithm of two to base ten
  let k := floorLog2 num den * 30103 / 100000
  let reaches (j : Int) : Bool := let (n, d) := scaleDownTen num den j; d ≤ n
  if reaches (k + 1) then k + 1 else if reaches k then k else k - 1

namespace Double

/-! ### The shortest decimal -/

/-- The ends of the interval of reals that round to a positive finite double, and the double
itself, in quarters of its last place; the ends belong to the interval when `closed`. -/
structure Interval where
  /-- Lower end. -/
  low : Nat
  /-- The double. -/
  value : Nat
  /-- Upper end. -/
  high : Nat
  /-- The power of two that all three are multiples of. -/
  exponent : Int
  /-- The ends round to the double as well. -/
  closed : Bool

/-- The interval of reals that round to a positive finite double.  Below a power of two the gap
is half as wide. -/
def interval (x : Double) : Interval :=
  let (m, e) := x.parts
  let gap := if m = hiddenBit ∧ -1074 < e then 1 else 2
  { low := 4 * m - gap, value := 4 * m, high := 4 * m + 2, exponent := e - 2
    closed := m % 2 = 0 }

/-- The decimal `c * 10 ^ k` lies in the interval. -/
def Interval.contains (i : Interval) (c : Nat) (k : Int) : Bool :=
  let (n, d) := scaleDownTen c 1 (-k)
  let (n, d) := scaleDown n d i.exponent
  if i.closed then i.low * d ≤ n && n ≤ i.high * d else i.low * d < n && n < i.high * d

/-- The multiple of `10 ^ k` in the interval that is nearest to the value: one of the value's two
neighbours on that grid. -/
def Interval.nearest? (i : Interval) (k : Int) : Option Nat :=
  let (n, d) := scaleDown i.value 1 (-i.exponent)
  let (n, d) := scaleDownTen n d k
  let c := n / d
  match i.contains c k, i.contains (c + 1) k with
  | true, true => some (roundHalfEven n d)
  | true, false => some c
  | false, true => some (c + 1)
  | false, false => none

/-- A positive number without its trailing zeros, and the power of ten it has to be multiplied
with. -/
def stripZeros (n : Nat) (k : Int) : Nat × Int :=
  if h : n ≠ 0 ∧ n % 10 = 0 then stripZeros (n / 10) (k + 1) else (n, k)
termination_by n
decreasing_by omega

/-- The digits `c` and the power of ten `k` of the shortest decimal `c * 10 ^ k` that reads back
as a positive finite double. -/
def shortest (x : Double) : Nat × Int :=
  let i := x.interval
  let (n, d) := x.ratio
  let top := floorLog10 n d
  -- seventeen digits tell any two doubles apart
  let grids := (List.range 17).map fun (j : Nat) => top - (j : Int)
  match grids.findSome? fun k => (i.nearest? k).map fun c => (c, k) with
  | some (c, k) => stripZeros c k
  | none => (0, 0)

/-! ### Fixed places -/

/-- The text of a magnitude with two places, a tie going to the even digit. -/
def fixed2 (x : Double) : String :=
  if x.isInfinite then "inf"
  else
    let (n, d) := x.ratio
    let hundredths := roundHalfEven (n * 100) d
    let fraction := toString (hundredths % 100)
    toString (hundredths / 100) ++ "." ++ (if hundredths % 100 < 10 then "0" else "") ++ fraction

end Double

end Roster
