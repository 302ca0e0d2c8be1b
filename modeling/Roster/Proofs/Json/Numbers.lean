/-
**Integers are read back.**

An integer is written with its decimal digits, and its reader takes digits as long as their number
fits.  An integer of 64 bits, signed or unsigned, always fits, so it is read back as it is,
provided that what follows does not go on with a number.

Main definitions:

* `Roster.digitsValue` — the number that some digits form after a number.

Main results:

* `Roster.digitsValue_decimal` — the digits of a number form that number;
* `Roster.Json.readNumber_decimal` — **an integer is read back**.
-/

import Roster.Proofs.Json.Entries

set_option relaxedAutoImplicit false
set_option autoImplicit false

namespace Roster

/-! ### Decimal digits -/

/-- The number that some digits form after the number `n`. -/
def digitsValue (n : Nat) (ds : Bytes) : Nat := ds.foldl (fun n b => n * 10 + digitValue b) n

theorem isDigit_of_lt : ∀ d, d < 10 → isDigit (0x30 + d).toUInt8 = true := by decide

theorem digitValue_of_lt : ∀ d, d < 10 → digitValue (0x30 + d).toUInt8 = d := by decide

theorem isDigit_of_mem_decimal {n : Nat} {b : UInt8} (h : b ∈ decimal n) : isDigit b = true := by
  fun_induction decimal n with
  | case1 n hn =>
      rw [List.mem_singleton] at h
      rw [h]
      exact isDigit_of_lt n hn
  | case2 n _ ih =>
      rcases List.mem_append.1 h with h | h
      · exact ih h
      · rw [List.mem_singleton] at h
        rw [h]
        exact isDigit_of_lt (n % 10) (Nat.mod_lt _ (by decide))

/-- The digits of a number form that number. -/
theorem digitsValue_decimal (n : Nat) : digitsValue 0 (decimal n) = n := by
  fun_induction decimal n with
  | case1 n hn =>
      simp only [digitsValue, List.foldl_cons, List.foldl_nil, Nat.zero_mul, Nat.zero_add]
      exact digitValue_of_lt n hn
  | case2 n _ ih =>
      have hd := digitValue_of_lt (n % 10) (Nat.mod_lt _ (by decide))
      simp only [digitsValue, List.foldl_append, List.foldl_cons, List.foldl_nil] at ih ⊢
      rw [ih, hd]
      omega

/-- The digits of a number other than zero do not begin with a zero. -/
theorem head?_decimal {n : Nat} (hn : 0 < n) : (decimal n).head? ≠ some 0x30 := by
  fun_induction decimal n with
  | case1 n h10 =>
      have h : ∀ d, d < 10 → 0 < d → (0x30 + d).toUInt8 ≠ 0x30 := by decide
      simpa using h n h10 hn
  | case2 n h10 ih =>
      have h := ih (by omega)
      cases hd : decimal (n / 10) with
      | nil => exact absurd hd (decimal_ne_nil _)
      | cons d ds =>
          rw [hd] at h
          simpa using h

theorem le_digitsValue (n : Nat) (ds : Bytes) : n ≤ digitsValue n ds := by
  induction ds generalizing n with
  | nil => exact Nat.le_refl n
  | cons d ds ih =>
      have h := ih (n * 10 + digitValue d)
      simp only [digitsValue, List.foldl_cons] at h ⊢
      omega

namespace Json

/-! ### Taking digits -/

theorem startsWithDigit_of_ends {rest : Bytes} (h : Ends rest) : startsWithDigit rest = false := by
  cases rest with
  | nil => rfl
  | cons b rest => exact h.1

/-- All of some digits are taken if the number that they form fits. -/
theorem takeDigits_append (limit : Nat) {n k : Nat} {ds rest : Bytes}
    (hd : ∀ b ∈ ds, isDigit b = true) (hlimit : digitsValue n ds ≤ limit)
    (hrest : startsWithDigit rest = false) :
    takeDigits limit n k (ds ++ rest) = ⟨digitsValue n ds, k + ds.length, rest⟩ := by
  induction ds generalizing n k with
  | nil =>
      cases rest with
      | nil => rfl
      | cons b rest =>
          have hb : isDigit b = false := hrest
          simp [takeDigits, hb, digitsValue]
  | cons d ds ih =>
      -- the number only grows with further digits, so it fits after the first one
      have hle : n * 10 + digitValue d ≤ limit :=
        Nat.le_trans (le_digitsValue (n * 10 + digitValue d) ds) hlimit
      have h := ih (n := n * 10 + digitValue d) (k := k + 1)
        (fun b hb => hd b (List.mem_cons_of_mem _ hb)) hlimit
      simp only [List.cons_append, takeDigits, hd d List.mem_cons_self, hle, decide_true,
        Bool.and_true, if_true, h, List.length_cons]
      simp only [digitsValue, List.foldl_cons, Digits.mk.injEq, and_true, true_and]
      omega

/-! ### Numbers -/

theorem readIntegerTail_of_ends {positive : Bool} {n : Nat} {rest : Bytes} (h : Ends rest) :
    readIntegerTail positive n rest = .ok (fitting positive n, rest) := by
  cases rest with
  | nil => rfl
  | cons b rest =>
      obtain ⟨-, hpoint, he, hE⟩ := h
      simp [readIntegerTail, hpoint, he, hE]

/-- **An integer is read back**, its sign having been read. -/
theorem readNumber_decimal (positive : Bool) {n : Nat} {rest : Bytes} (hn : n ≤ maxSignificand)
    (h : Ends rest) : readNumber positive (decimal n ++ rest) = .ok (fitting positive n, rest) := by
  have hrest := startsWithDigit_of_ends h
  rcases Nat.eq_zero_or_pos n with rfl | hpos
  · have hzero : decimal 0 = [0x30] := by
      rw [decimal]
      rfl
    simp [hzero, readNumber, hrest, readIntegerTail_of_ends h]
  · cases hd : decimal n with
    | nil => exact absurd hd (decimal_ne_nil n)
    | cons d ds =>
        have hvalue := digitsValue_decimal n
        have hhead := head?_decimal hpos
        have hdigits : ∀ b ∈ d :: ds, isDigit b = true := fun b hb =>
          isDigit_of_mem_decimal (hd ▸ hb)
        rw [hd] at hvalue hhead
        have hvalue' : digitsValue (digitValue d) ds = n := by
          simpa [digitsValue] using hvalue
        have htake := takeDigits_append maxSignificand (k := 0)
          (fun b hb => hdigits b (List.mem_cons_of_mem _ hb)) (by rw [hvalue']; exact hn) hrest
        have hd0 : d ≠ 0x30 := by simpa using hhead
        simp only [List.cons_append, readNumber, hd0, if_false, hdigits d List.mem_cons_self,
          if_true, htake, hvalue', hrest, Bool.false_eq_true]
        exact readIntegerTail_of_ends h

end Json

end Roster
