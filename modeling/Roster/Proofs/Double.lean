/-
**The digits of a double.**

The shortest decimal of a double is searched for on one grid after the other, among the multiples of
a power of ten that round to the double.  Zero is never one of them, since a double that is not zero
has all its reals on one side of zero.  So the digits that are found never begin with a zero, and
where a text is made of them no zero has to be left out.

Main results:

* `Roster.Double.Interval.contains_zero` — **zero does not round to another double**;
* `Roster.Double.shortest_eq_zero` — digits that are zero stand at the units.
-/

import Roster.Double.Text

set_option relaxedAutoImplicit false
set_option autoImplicit false

namespace Roster

/-! ### Scaled ratios -/

theorem scaleDownTen_pos {num den : Nat} (h : 0 < den) (k : Int) :
    0 < (scaleDownTen num den k).2 := by
  cases k with
  | ofNat j => exact Nat.mul_pos h (Nat.pow_pos (by decide))
  | negSucc j => exact h

theorem scaleDown_pos {num den : Nat} (h : 0 < den) (e : Int) : 0 < (scaleDown num den e).2 := by
  cases e with
  | ofNat j => exact Nat.mul_pos h (Nat.pow_pos (by decide))
  | negSucc j => exact h

theorem scaleDownTen_zero (den : Nat) (k : Int) : (scaleDownTen 0 den k).1 = 0 := by
  cases k with
  | ofNat j => rfl
  | negSucc j => exact Nat.zero_mul _

theorem scaleDown_zero (den : Nat) (e : Int) : (scaleDown 0 den e).1 = 0 := by
  cases e with
  | ofNat j => rfl
  | negSucc j => exact Nat.zero_mul _

theorem le_roundHalfEven (n d : Nat) : n / d ≤ roundHalfEven n d := by
  simp only [roundHalfEven]
  split <;> omega

namespace Double

/-! ### Intervals -/

/-- The significand of a double that is not zero is positive. -/
theorem parts_pos {x : Double} (h : x.isZero = false) : 0 < x.parts.1 := by
  have hne : x.magnitude ≠ 0 := by simpa [isZero] using h
  simp only [parts]
  split
  · rename_i he
    have hdiv := Nat.div_add_mod x.magnitude hiddenBit
    rw [he] at hdiv
    show 0 < x.magnitude % hiddenBit
    omega
  · show 0 < x.magnitude % hiddenBit + hiddenBit
    simp only [hiddenBit]
    omega

theorem low_pos {x : Double} (h : x.isZero = false) : 0 < x.interval.low := by
  have hm := parts_pos h
  simp only [interval]
  split <;> omega

/-- **Zero does not round to another double.** -/
theorem Interval.contains_zero {i : Interval} (h : 0 < i.low) (k : Int) :
    i.contains 0 k = false := by
  have hden : 0 < (scaleDownTen 0 1 (-k)).2 := scaleDownTen_pos (by decide) _
  have hnum : (scaleDownTen 0 1 (-k)).1 = 0 := scaleDownTen_zero _ _
  simp only [contains, hnum, scaleDown_zero]
  -- a lower end that is positive lies above zero on every grid
  have hlow := Nat.mul_pos h (@scaleDown_pos 0 _ hden i.exponent)
  split
  · simp [Nat.not_le.2 hlow]
  · simp

/-- The nearest decimal of an interval above zero is not zero. -/
theorem Interval.nearest?_pos {i : Interval} (h : 0 < i.low) {k : Int} {c : Nat}
    (hc : i.nearest? k = some c) : 0 < c := by
  have hpos : ∀ c, i.contains c k = true → 0 < c := by
    intro c hc
    rcases Nat.eq_zero_or_pos c with rfl | hpos
    · rw [contains_zero h] at hc
      contradiction
    · exact hpos
  simp only [nearest?] at hc
  split at hc
  · rename_i hlower _
    rw [← Option.some.inj hc]
    exact Nat.lt_of_lt_of_le (hpos _ hlower) (le_roundHalfEven _ _)
  · rename_i hlower _
    rw [← Option.some.inj hc]
    exact hpos _ hlower
  · rw [← Option.some.inj hc]
    exact Nat.succ_pos _
  · cases hc

/-! ### The shortest decimal -/

theorem stripZeros_pos {n : Nat} (h : 0 < n) (k : Int) : 0 < (stripZeros n k).1 := by
  fun_induction stripZeros n k with
  | case1 n k hn ih => exact ih (by omega)
  | case2 => exact h

/-- Digits that are zero stand at the units: then no decimal has been found at all. -/
theorem shortest_eq_zero {x : Double} (h : x.isZero = false) (hc : x.shortest.1 = 0) :
    x.shortest.2 = 0 := by
  unfold shortest at hc ⊢
  dsimp only at hc ⊢
  split at hc
  · rename_i c k hfound
    obtain ⟨k', -, hk'⟩ := List.exists_of_findSome?_eq_some hfound
    obtain ⟨c', hc', heq⟩ := Option.map_eq_some_iff.1 hk'
    obtain ⟨rfl, rfl⟩ := Prod.mk.inj heq
    have hpos := stripZeros_pos (Interval.nearest?_pos (low_pos h) hc') k'
    omega
  · rfl

end Double

end Roster
