/-
**Double-precision numbers, exactly.**

A double is its 64-bit pattern.  The finite non-negative ones denote ratios of natural numbers,
and every operation needed here is the same single step: form the exact ratio, then round it to
the nearest double, a tie going to the even significand.  No operation of this module leaves
the natural numbers, so each of them can be computed and reasoned about like any other function.

Main definitions:

* `Roster.Double` — a bit pattern, and `Double.ratio`, the magnitude it denotes;
* `Roster.roundHalfEven` — a ratio rounded to the nearest natural number;
* `Roster.Double.ofRatio` — **the double nearest to a ratio**;
* `Roster.Double.add`, `Double.mul`, `Double.div` — arithmetic on magnitudes.
-/

set_option relaxedAutoImplicit false
set_option autoImplicit false

namespace Roster

/-- A double-precision number, as its bit pattern: sign, eleven bits of exponent, fifty-two of
significand. -/
structure Double where
  /-- The pattern. -/
  bits : UInt64
  deriving DecidableEq, Inhabited, Repr

/-! ### Rounding a ratio -/

/-- The natural number nearest to `num / den`; a tie goes to the even one. -/
def roundHalfEven (num den : Nat) : Nat :=
  let q := num / den
  let r := num % den
  if den < 2 * r ∨ (2 * r = den ∧ q % 2 = 1) then q + 1 else q

/-- The ratio `num / den` divided by `2 ^ e`, again as numerator and denominator. -/
def scaleDown (num den : Nat) (e : Int) : Nat × Nat :=
  match e with
  | .ofNat k => (num, den * Nat.pow 2 k)
  | .negSucc k => (num * Nat.pow 2 (k + 1), den)

/-- The largest `e` with `2 ^ e ≤ num / den`, for positive `num` and `den`. -/
def floorLog2 (num den : Nat) : Int :=
  let e : Int := (num.log2 : Int) - den.log2
  let (n, d) := scaleDown num den e
  if d ≤ n then e else e - 1

namespace Double

/-- The value of the bit above the stored significand. -/
def hiddenBit : Nat := 0x10000000000000

def signBit : Nat := 0x8000000000000000

/-- The pattern of infinity, one above that of the largest finite double. -/
def infinityBits : Nat := 0x7ff0000000000000

def infinity : Double := ⟨infinityBits.toUInt64⟩

def zero : Double := ⟨0⟩

/-- The double nearest to `num / den`.  The significand is rounded at the last place of the
ratio's own binade, or of the smallest one; a significand that rounds up to a power of two
carries into the exponent, and a pattern beyond the finite ones is infinity. -/
def ofRatio (num den : Nat) : Double :=
  if num = 0 then zero
  else
    let e : Int := max (floorLog2 num den - 52) (-1074)
    let (n, d) := scaleDown num den e
    let bits := (e + 1074).toNat * hiddenBit + roundHalfEven n d
    if infinityBits ≤ bits then infinity else ⟨bits.toUInt64⟩

/-- The double nearest to a natural number. -/
def ofNat (n : Nat) : Double := ofRatio n 1

/-! ### Parts of a double -/

/-- The pattern without its sign. -/
def magnitude (x : Double) : Nat := x.bits.toNat % signBit

def isNegative (x : Double) : Bool := signBit ≤ x.bits.toNat

def isInfinite (x : Double) : Bool := x.magnitude = infinityBits

def isZero (x : Double) : Bool := x.magnitude = 0

/-- The double with its sign set. -/
def negate (x : Double) : Double := ⟨(x.magnitude + signBit).toUInt64⟩

/-- Significand and exponent: a finite magnitude is `significand * 2 ^ exponent`. -/
def parts (x : Double) : Nat × Int :=
  let e : Nat := x.magnitude / hiddenBit
  let f : Nat := x.magnitude % hiddenBit
  if e = 0 then (f, -1074) else (f + hiddenBit, (e : Int) - 1075)

/-- A finite magnitude as a ratio. -/
def ratio (x : Double) : Nat × Nat :=
  match x.parts with
  | (m, .ofNat k) => (m * Nat.pow 2 k, 1)
  | (m, .negSucc k) => (m, Nat.pow 2 (k + 1))

/-! ### Arithmetic on magnitudes -/

/-- The sum of two finite magnitudes. -/
def add (x y : Double) : Double :=
  let (a, b) := x.ratio
  let (c, d) := y.ratio
  ofRatio (a * d + c * b) (b * d)

/-- The product of two finite magnitudes. -/
def mul (x y : Double) : Double :=
  let (a, b) := x.ratio
  let (c, d) := y.ratio
  ofRatio (a * c) (b * d)

/-- The quotient of two finite magnitudes, the second not zero. -/
def div (x y : Double) : Double :=
  let (a, b) := x.ratio
  let (c, d) := y.ratio
  ofRatio (a * d) (b * c)

/-- The double nearest to a power of ten. -/
def tenPow (k : Nat) : Double := ofRatio (Nat.pow 10 k) 1

end Double

end Roster
