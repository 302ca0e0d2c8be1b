/-
**Byte strings.**

Files, documents and messages are sequences of bytes; texts are sequences of characters.  This
module fixes the one bridge between the two, UTF-8, together with the few classes of bytes that
the formats of this library are made of.

Main definitions:

* `Roster.Bytes` — a sequence of bytes;
* `Roster.utf8` — the bytes of a text;
* `Roster.text?` — the text of some bytes, if they are UTF-8;
* `Roster.decimal` — the decimal digits of a number, as bytes.

Main results:

* `Roster.text?_utf8` — **a text is read back from its bytes**.
-/

set_option relaxedAutoImplicit false
set_option autoImplicit false

namespace Roster

/-- A sequence of bytes. -/
abbrev Bytes := List UInt8

/-! ### Texts and their bytes -/

def utf8 (s : String) : Bytes := s.toUTF8.data.toList

/-- The text that some bytes stand for, if they are well-formed UTF-8. -/
def text? (b : Bytes) : Option String := String.fromUTF8? b.toByteArray

theorem toByteArray_utf8 (s : String) : (utf8 s).toByteArray = s.toByteArray := by
  apply ByteArray.ext
  simp [utf8, List.data_toByteArray]

/-- **A text is read back from its bytes.** -/
@[simp] theorem text?_utf8 (s : String) : text? (utf8 s) = some s := by
  have h : s.toByteArray.IsValidUTF8 := s.isValidUTF8
  simp [text?, toByteArray_utf8, String.fromUTF8?, h, String.fromUTF8]

/-! ### Classes of bytes -/

/-- The byte is one of the digits `0` to `9`. -/
def isDigit (b : UInt8) : Bool := 0x30 ≤ b && b ≤ 0x39

def digitValue (b : UInt8) : Nat := b.toNat - 0x30

/-- The value of a hexadecimal digit, in either case. -/
def hexValue? (b : UInt8) : Option Nat :=
  if isDigit b then some (digitValue b)
  else if 0x41 ≤ b && b ≤ 0x46 then some (b.toNat - 0x37)
  else if 0x61 ≤ b && b ≤ 0x66 then some (b.toNat - 0x57)
  else none

/-- The lower-case hexadecimal digit of a number below sixteen. -/
def hexDigit (n : Nat) : UInt8 :=
  if n < 10 then (0x30 + n).toUInt8 else (0x57 + n).toUInt8

/-! ### Decimal digits -/

/-- The decimal digits of a number, the most significant first. -/
def decimal (n : Nat) : Bytes :=
  if n < 10 then [(0x30 + n).toUInt8] else decimal (n / 10) ++ [(0x30 + n % 10).toUInt8]
termination_by n

/-- The decimal digits of an integer, after a minus sign if it is negative. -/
def signedDecimal : Int → Bytes
  | .ofNat n => decimal n
  | .negSucc n => 0x2d :: decimal (n + 1)

theorem decimal_ne_nil (n : Nat) : decimal n ≠ [] := by
  rw [decimal]
  split <;> simp

end Roster
