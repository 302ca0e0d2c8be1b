/-
**The bytes of a text.**

The bytes of a text are those of its characters, one after the other.  A character below 0x80 is the
one byte of its number, and all bytes of the others are at least 0x80.  So a byte that means
something to a format, such as a quote or a digit, is never part of another character, and a text
can be taken apart and put together again at such bytes.

Main definitions:

* `Roster.IsText` — some bytes are those of a text.

Main results:

* `Roster.utf8_eq_flatMap` — the bytes of a text, character by character;
* `Roster.utf8EncodeChar_of_lt`, `Roster.le_of_mem_utf8EncodeChar` — the bytes of a character;
* `Roster.utf8_lt_iff` — **texts are in the order of their bytes**.
-/

import Roster.Bytes

set_option relaxedAutoImplicit false
set_option autoImplicit false

namespace Roster

/-! ### Characters -/

/-- The bytes of a text are those of its characters. -/
theorem utf8_eq_flatMap (s : String) : utf8 s = s.toList.flatMap String.utf8EncodeChar := by
  rw [utf8, String.toUTF8, ← String.utf8Encode_toList, List.utf8Encode, List.data_toByteArray]

theorem utf8_append (s t : String) : utf8 (s ++ t) = utf8 s ++ utf8 t := by
  simp [utf8_eq_flatMap]

/-- A character below 0x80 is the byte of its number. -/
theorem utf8EncodeChar_of_lt {c : Char} (h : c.toNat < 0x80) :
    String.utf8EncodeChar c = [c.toNat.toUInt8] := by
  have hle : c.val.toNat ≤ 127 := Nat.le_of_lt_succ h
  exact if_pos hle

/-- The other characters have no bytes below 0x80. -/
theorem le_of_mem_utf8EncodeChar {c : Char} (h : 0x80 ≤ c.toNat) {b : UInt8}
    (hb : b ∈ String.utf8EncodeChar c) : 0x80 ≤ b := by
  have hgt : ¬c.val.toNat ≤ 127 := Nat.not_le.2 h
  have hbyte : ∀ n, 0x80 ≤ n → n < 0x100 → (0x80 : UInt8) ≤ UInt8.ofNat n := by
    intro n hle hlt
    rw [UInt8.le_iff_toNat_le, UInt8.toNat_ofNat', Nat.mod_eq_of_lt hlt]
    exact hle
  simp only [String.utf8EncodeChar, hgt, if_false] at hb
  split at hb
  · simp only [List.mem_cons, List.not_mem_nil, or_false] at hb
    rcases hb with rfl | rfl <;> exact hbyte _ (by omega) (by omega)
  split at hb
  · simp only [List.mem_cons, List.not_mem_nil, or_false] at hb
    rcases hb with rfl | rfl | rfl <;> exact hbyte _ (by omega) (by omega)
  · simp only [List.mem_cons, List.not_mem_nil, or_false] at hb
    rcases hb with rfl | rfl | rfl | rfl <;> exact hbyte _ (by omega) (by omega)

theorem utf8EncodeChar_ne_nil (c : Char) : String.utf8EncodeChar c ≠ [] := by
  simp only [String.utf8EncodeChar]
  repeat' split
  all_goals simp

theorem toNat_ofNat_of_lt : ∀ n, n < 0x80 → (Char.ofNat n).toNat = n := by decide

/-! ### The order of texts -/

theorem toNat_lt (c : Char) : c.val.toNat < 0x110000 := by
  rcases c.valid with h | ⟨-, h⟩
  · exact Nat.lt_trans h (by decide)
  · exact h

/-- Characters are in the order of their bytes, and what follows them does not matter. -/
theorem utf8EncodeChar_lt {c d : Char} (h : c < d) (x y : Bytes) :
    String.utf8EncodeChar c ++ x < String.utf8EncodeChar d ++ y := by
  have hlt : c.val.toNat < d.val.toNat := UInt32.lt_iff_toNat_lt.1 h
  have hd := toNat_lt d
  -- a byte holds a digit to the base 64, so the digits are taken one after the other
  have htwo : ∀ k, k / 4096 = k / 64 / 64 := fun k => by omega
  have hthree : ∀ k, k / 262144 = k / 64 / 64 / 64 := fun k => by omega
  simp only [String.utf8EncodeChar]
  generalize c.val.toNat = n at hlt
  generalize d.val.toNat = m at hlt hd
  repeat' split
  all_goals
    simp only [List.cons_append, List.cons_lt_cons_iff, UInt8.lt_iff_toNat_lt, ← UInt8.toNat_inj,
      UInt8.toNat_ofNat', Nat.reducePow, htwo, hthree]
    omega

theorem utf8_lt_of_lt {s t : String} (h : s < t) : utf8 s < utf8 t := by
  rw [utf8_eq_flatMap, utf8_eq_flatMap]
  replace h : s.toList < t.toList := h
  generalize s.toList = cs at h
  generalize t.toList = ds at h
  induction cs generalizing ds with
  | nil =>
      cases ds with
      | nil => cases h
      | cons d ds =>
          cases hd : String.utf8EncodeChar d with
          | nil => exact absurd hd (utf8EncodeChar_ne_nil d)
          | cons b rest =>
              rw [List.flatMap_cons, hd, List.cons_append]
              exact List.nil_lt_cons b _
  | cons c cs ih =>
      cases ds with
      | nil => cases h
      | cons d ds =>
          rw [List.flatMap_cons, List.flatMap_cons]
          rcases List.cons_lt_cons_iff.1 h with hcd | ⟨rfl, hrest⟩
          · exact utf8EncodeChar_lt hcd _ _
          · exact List.append_left_lt (ih ds hrest)

/-- **Texts are in the order of their bytes.** -/
theorem utf8_lt_iff {s t : String} : utf8 s < utf8 t ↔ s < t := by
  constructor
  · intro h
    rcases Std.lt_trichotomy s t with hst | rfl | hts
    · exact hst
    · exact absurd h (List.lt_irrefl _)
    · exact absurd h (List.lt_asymm (utf8_lt_of_lt hts))
  · exact utf8_lt_of_lt

/-! ### Bytes that are texts -/

/-- Some bytes are those of a text. -/
def IsText (b : Bytes) : Prop := ∃ t, utf8 t = b

theorem IsText.append {a b : Bytes} (ha : IsText a) (hb : IsText b) : IsText (a ++ b) := by
  obtain ⟨s, rfl⟩ := ha
  obtain ⟨t, rfl⟩ := hb
  exact ⟨s ++ t, utf8_append s t⟩

/-- Bytes below 0x80 are a text. -/
theorem IsText.of_lt {b : Bytes} (h : ∀ c ∈ b, c < 0x80) : IsText b := by
  refine ⟨String.ofList (b.map fun c => Char.ofNat c.toNat), ?_⟩
  rw [utf8_eq_flatMap, String.toList_ofList]
  induction b with
  | nil => rfl
  | cons c b ih =>
      have hc : c.toNat < 0x80 := UInt8.lt_iff_toNat_lt.1 (h c List.mem_cons_self)
      have hnat := toNat_ofNat_of_lt c.toNat hc
      rw [List.map_cons, List.flatMap_cons, ih fun d hd => h d (List.mem_cons_of_mem _ hd),
        utf8EncodeChar_of_lt (by rw [hnat]; exact hc), hnat]
      simp

/-- Bytes put together from texts, one for each character of a text, are a text. -/
theorem IsText.flatMap {cs : List Char} {f : Char → Bytes} (h : ∀ c ∈ cs, IsText (f c)) :
    IsText (cs.flatMap f) := by
  induction cs with
  | nil => exact ⟨"", rfl⟩
  | cons c cs ih =>
      rw [List.flatMap_cons]
      exact (h c List.mem_cons_self).append (ih fun d hd => h d (List.mem_cons_of_mem _ hd))

end Roster
