/-
**Strings are read back.**

A string is written with escapes for quotes, backslashes and controls, and every other byte as it
is.  Reading it up to the closing quote undoes the escapes one by one, whatever bytes the string
consists of and whatever follows it.

Main results:

* `Roster.Json.readEscape_of_escape?` — an escape stands for the byte that it was made of;
* `Roster.Json.readContent_escaped` — the bytes between the quotes are read back;
* `Roster.Json.readString_escaped` — **a string is read back**.
-/

import Roster.Json.Printer
import Roster.Json.Token

set_option relaxedAutoImplicit false
set_option autoImplicit false

namespace Roster.Json

/-! ### Escapes -/

theorem hexValue?_hexDigit : ∀ n, n < 16 → hexValue? (hexDigit n) = some n := by decide

/-- A control is encoded as the one byte that it is. -/
theorem codePoint_of_lt : ∀ n, n < 0x20 → codePoint n = [n.toUInt8] := by decide

/-- The digits after `\u00` are those of the byte. -/
theorem readHex_hexDigit (b : UInt8) (rest : Bytes) :
    readHex (0x30 :: 0x30 :: hexDigit (b.toNat / 16) :: hexDigit (b.toNat % 16) :: rest) =
      .ok (b.toNat, rest) := by
  have hb : b.toNat < 256 := b.toNat_lt
  have h0 : hexValue? 0x30 = some 0 := by decide
  have h1 := hexValue?_hexDigit (b.toNat / 16) (by omega)
  have h2 := hexValue?_hexDigit (b.toNat % 16) (by omega)
  simp only [readHex, h0, h1, h2, Except.ok.injEq, Prod.mk.injEq, and_true]
  omega

/-- The bytes that are written as a backslash and a letter, each with its letter. -/
def lettered : List (UInt8 × UInt8) :=
  [(0x22, 0x22), (0x5c, 0x5c), (0x08, 0x62), (0x0c, 0x66), (0x0a, 0x6e), (0x0d, 0x72), (0x09, 0x74)]

/-- What follows the backslash of a byte that is written by its number. -/
def numbered (b : UInt8) : Bytes :=
  [0x75, 0x30, 0x30, hexDigit (b.toNat / 16), hexDigit (b.toNat % 16)]

/-- A byte that has an escape has a letter, or is a control that is written by its number. -/
theorem escape?_eq_some {b : UInt8} {e : Bytes} (h : escape? b = some e) :
    (∃ letter, (b, letter) ∈ lettered ∧ e = [0x5c, letter]) ∨
      b < 0x20 ∧ e = 0x5c :: numbered b := by
  unfold escape? at h
  repeat' split at h
  all_goals simp_all [lettered, numbered]

/-- A letter stands for the byte that it was made of. -/
theorem readEscape_lettered {b letter : UInt8} (h : (b, letter) ∈ lettered) (rest : Bytes) :
    readEscape (letter :: rest) = .ok ([b], rest) := by
  simp only [lettered, List.mem_cons, Prod.mk.injEq, List.not_mem_nil, or_false] at h
  rcases h with ⟨rfl, rfl⟩ | ⟨rfl, rfl⟩ | ⟨rfl, rfl⟩ | ⟨rfl, rfl⟩ | ⟨rfl, rfl⟩ | ⟨rfl, rfl⟩ |
    ⟨rfl, rfl⟩ <;> rfl

/-- A control is read back from its number. -/
theorem readEscape_numbered {b : UInt8} (h : b < 0x20) (rest : Bytes) :
    readEscape (numbered b ++ rest) = .ok ([b], rest) := by
  have hlt : b.toNat < 0x20 := by simpa [UInt8.lt_iff_toNat_lt] using h
  have hchar : codePoint b.toNat = [b] := by
    rw [codePoint_of_lt b.toNat hlt]
    simp
  have hhex := readHex_hexDigit b rest
  have hlow : ¬(0xdc00 ≤ b.toNat ∧ b.toNat ≤ 0xdfff) := by omega
  have hhigh : ¬(0xd800 ≤ b.toNat ∧ b.toNat ≤ 0xdbff) := by omega
  simp [numbered, readEscape, hhex, hlow, hhigh, hchar]

/-- An escape begins with a backslash, and what follows it stands for the byte that the escape was
made of. -/
theorem readEscape_of_escape? {b : UInt8} {e : Bytes} (h : escape? b = some e) :
    ∃ e', e = 0x5c :: e' ∧ ∀ rest, readEscape (e' ++ rest) = .ok ([b], rest) := by
  rcases escape?_eq_some h with ⟨letter, hmem, rfl⟩ | ⟨hlt, rfl⟩
  · exact ⟨[letter], rfl, readEscape_lettered hmem⟩
  · exact ⟨numbered b, rfl, readEscape_numbered hlt⟩

/-- A byte without an escape may stand in a string as it is. -/
theorem ne_of_escape?_eq_none {b : UInt8} (h : escape? b = none) :
    b ≠ 0x22 ∧ b ≠ 0x5c ∧ ¬b < 0x20 := by
  unfold escape? at h
  refine ⟨?_, ?_, ?_⟩
  · rintro rfl
    simp at h
  · rintro rfl
    simp at h
  · intro hb
    simp [hb] at h
    repeat' split at h
    all_goals simp at h

/-! ### Strings -/

/-- The bytes between the quotes are read back. -/
theorem readContent_escaped (s done rest : Bytes) :
    readContent done (s.flatMap escaped ++ 0x22 :: rest) = .ok (done.reverse ++ s, rest) := by
  induction s generalizing done with
  | nil => simp [readContent]
  | cons b s ih =>
      cases h : escape? b with
      | none =>
          obtain ⟨hq, hs, hc⟩ := ne_of_escape?_eq_none h
          have hb : escaped b = [b] := by simp [escaped, h]
          simp only [List.flatMap_cons, hb, List.cons_append, List.nil_append]
          rw [readContent]
          simp [hq, hs, hc, ih]
      | some e =>
          obtain ⟨e', rfl, he⟩ := readEscape_of_escape? h
          have hb : escaped b = 0x5c :: e' := by simp [escaped, h]
          have hread := he (s.flatMap escaped ++ 0x22 :: rest)
          simp only [List.flatMap_cons, hb, List.cons_append, List.append_assoc]
          rw [readContent]
          simp only [show ¬(0x5c : UInt8) = 0x22 by decide, if_false, if_true]
          split
          · rename_i hr
            cases hread.symm.trans hr
          · rename_i hr
            cases hread.symm.trans hr
            rw [ih]
            simp

/-- **A string is read back**, its opening quote having been read. -/
theorem readString_escaped (s : String) (rest : Bytes) :
    readString ((utf8 s).flatMap escaped ++ 0x22 :: rest) = .ok (s, rest) := by
  simp [readString, readContent_escaped]

end Roster.Json
