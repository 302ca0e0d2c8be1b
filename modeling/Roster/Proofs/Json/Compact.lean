/-
**The compact text of a value.**

Reports show a value by its compact text.  It is given as a text and not as bytes, and a text is
what the bytes of a value always are: strings are texts, an escape stands for a whole character, and
all the rest is below 0x80.

Main results:

* `Roster.Json.isText_stringText` — a string is written as a text;
* `Roster.Json.Value.isText_text` — so is every value;
* `Roster.Json.Value.utf8_compact` — **the compact text has the bytes of the value**;
* `Roster.Json.Readable.parse_text`, `Roster.Json.Readable.parse_compact` — and so it is read back.
-/

import Roster.Proofs.Bytes
import Roster.Proofs.Json.Numbers
import Roster.Proofs.Json.RoundTrip

set_option relaxedAutoImplicit false
set_option autoImplicit false

namespace Roster.Json

/-! ### Strings -/

/-- Bytes from 0x80 on stand for themselves. -/
theorem escaped_of_le {b : UInt8} (h : 0x80 ≤ b) : escaped b = [b] := by
  have hne : ∀ {c : UInt8}, c < 0x80 → b ≠ c := by
    rintro c hc rfl
    exact absurd hc (UInt8.not_lt.2 h)
  have hcontrol : ¬b < 0x20 := by
    intro hb
    exact absurd (UInt8.le_trans h (UInt8.le_of_lt hb)) (by decide)
  have hnone : escape? b = none := by
    simp [escape?, hne (show 0x22 < 0x80 by decide), hne (show 0x5c < 0x80 by decide),
      hne (show 0x08 < 0x80 by decide), hne (show 0x0c < 0x80 by decide),
      hne (show 0x0a < 0x80 by decide), hne (show 0x0d < 0x80 by decide),
      hne (show 0x09 < 0x80 by decide), hcontrol]
  rw [escaped, hnone, Option.getD_none]

/-- Bytes below 0x80 are written with such bytes only. -/
theorem lt_of_mem_escaped {n : Nat} (hn : n < 0x80) : ∀ c ∈ escaped n.toUInt8, c < 0x80 := by
  have hall : ∀ n, n < 0x80 → ((escaped n.toUInt8).all fun c => c < 0x80) = true := by decide
  intro c hc
  exact of_decide_eq_true (List.all_eq_true.1 (hall n hn) c hc)

/-- So do the characters from there on. -/
theorem flatMap_escaped_of_le {c : Char} (h : 0x80 ≤ c.toNat) :
    (String.utf8EncodeChar c).flatMap escaped = String.utf8EncodeChar c := by
  have hge : ∀ b ∈ String.utf8EncodeChar c, escaped b = [b] := fun b hb =>
    escaped_of_le (le_of_mem_utf8EncodeChar h hb)
  rw [List.flatMap_def, List.map_congr_left hge, ← List.flatMap_def, List.flatMap_singleton']

/-- A character is written as a text. -/
theorem isText_char (c : Char) : IsText ((String.utf8EncodeChar c).flatMap escaped) := by
  by_cases hc : c.toNat < 0x80
  · rw [utf8EncodeChar_of_lt hc, List.flatMap_singleton]
    exact .of_lt (lt_of_mem_escaped hc)
  · rw [flatMap_escaped_of_le (Nat.not_lt.1 hc)]
    exact ⟨String.ofList [c], by simp [utf8_eq_flatMap]⟩

theorem isText_stringText (s : String) : IsText (stringText s) := by
  have hcontent : IsText ((utf8 s).flatMap escaped) := by
    rw [utf8_eq_flatMap, List.flatMap_assoc]
    exact .flatMap fun c _ => isText_char c
  have hquote : IsText [0x22] := .of_lt (by simp)
  exact hquote.append (hcontent.append hquote)

/-! ### Numbers -/

theorem lt_of_mem_decimal (n : Nat) : ∀ b ∈ decimal n, b < 0x80 := by
  intro b hb
  have hdigit := isDigit_of_mem_decimal hb
  simp only [isDigit, Bool.and_eq_true, decide_eq_true_eq] at hdigit
  exact UInt8.lt_of_le_of_lt hdigit.2 (by decide)

theorem isText_decimal (n : Nat) : IsText (decimal n) := .of_lt (lt_of_mem_decimal n)

theorem isText_cons {b : UInt8} (hb : b < 0x80) {s : Bytes} (h : IsText s) : IsText (b :: s) :=
  (show IsText [b] from .of_lt (by simpa using hb)).append h

theorem isText_replicate (n : Nat) : IsText (List.replicate n 0x30) :=
  .of_lt fun b hb => by rw [List.eq_of_mem_replicate hb]; decide

theorem isText_double (x : Double) : IsText (doubleText x) := by
  have hsign : IsText (if x.isNegative then [0x2d] else []) := by
    split
    · exact .of_lt (by simp)
    · exact .of_lt (by simp)
  unfold doubleText
  dsimp only
  split
  · exact hsign.append ⟨_, rfl⟩
  generalize x.shortest = y
  obtain ⟨c, k⟩ := y
  dsimp only
  refine hsign.append ?_
  split
  · exact ((isText_decimal c).append (isText_replicate _)).append ⟨_, rfl⟩
  split
  · have hlt := lt_of_mem_decimal c
    refine IsText.append (.of_lt ?_) (isText_cons (by decide) (.of_lt ?_))
    · exact fun b hb => hlt b (List.mem_of_mem_take hb)
    · exact fun b hb => hlt b (List.mem_of_mem_drop hb)
  split
  · exact (IsText.append ⟨_, rfl⟩ (isText_replicate _)).append (isText_decimal c)
  · refine IsText.append ?_ (isText_cons (by decide) (isText_cons ?_ (isText_decimal _)))
    · -- the digits, with a point after the first one if there are others
      have hlt := lt_of_mem_decimal c
      split
      · rename_i d hd
        exact .of_lt (hd ▸ hlt)
      · rename_i d rest _ hd
        rw [hd] at hlt
        have hrest : IsText rest := .of_lt fun b hb => hlt b (List.mem_cons_of_mem d hb)
        exact isText_cons (hlt d List.mem_cons_self) (isText_cons (by decide) hrest)
      · exact ⟨"", rfl⟩
    · split <;> decide

theorem isText_number (n : Number) : IsText n.text := by
  cases n with
  | integer n =>
      cases n with
      | ofNat n => exact isText_decimal n
      | negSucc n => exact (show IsText [0x2d] from .of_lt (by simp)).append (isText_decimal _)
  | double x =>
      exact isText_double x

/-! ### Values -/

/-- What is joined from texts is a text. -/
theorem isText_joined {sep : Bytes} (hsep : IsText sep) (first : Bool) {ts : List Bytes}
    (h : ∀ t ∈ ts, IsText t) : IsText (joined sep first ts) := by
  induction ts generalizing first with
  | nil => exact ⟨"", rfl⟩
  | cons t ts ih =>
      have hrest := ih false fun t ht => h t (List.mem_cons_of_mem _ ht)
      have ht := h t List.mem_cons_self
      cases first with
      | true => exact ht.append hrest
      | false => exact (hsep.append ht).append hrest

theorem isText_separator (style : Style) : IsText style.separator := by
  cases style <;> exact .of_lt (by simp [Style.separator])

theorem isText_colon (style : Style) : IsText style.colon := by
  cases style <;> exact .of_lt (by simp [Style.colon])

/-- Every value is written as a text. -/
theorem Value.isText_text (style : Style) (v : Value) : IsText (v.text style) := by
  induction v with
  | null => exact ⟨"null", by simp [Value.text, Value.pieces]⟩
  | bool b =>
      cases b with
      | false => exact ⟨"false", by simp [Value.text, Value.pieces]⟩
      | true => exact ⟨"true", by simp [Value.text, Value.pieces]⟩
  | number n =>
      rw [text_number]
      exact isText_number n
  | string s =>
      rw [text_string]
      exact isText_stringText s
  | array items ih =>
      rw [text_array]
      have hitems := isText_joined (isText_separator style) true (List.forall_mem_map.2 ih)
      exact isText_cons (by decide) (hitems.append (.of_lt (by simp)))
  | object members ih =>
      rw [text_object]
      have hmember : ∀ m ∈ members, IsText (memberText style m) := fun m hm =>
        ((isText_stringText m.1).append (isText_colon style)).append (ih m hm)
      have hmembers := isText_joined (isText_separator style) true (List.forall_mem_map.2 hmember)
      exact isText_cons (by decide) (hmembers.append (.of_lt (by simp)))

/-- **The compact text has the bytes of the value.** -/
theorem Value.utf8_compact (v : Value) : utf8 v.compact = v.text .compact := by
  obtain ⟨t, ht⟩ := v.isText_text .compact
  rw [Value.compact, ← ht, text?_utf8, Option.getD_some]

/-- A text that has been written is read back. -/
theorem Readable.parse_text {v : Value} (h : Readable maxDepth v) (style : Style) :
    parse (v.text style) = .ok v.normal := by
  have hread := h.reads style [] trivial
  rw [List.append_nil] at hread
  rw [parse, hread]
  rfl

/-- The compact text is read back. -/
theorem Readable.parse_compact {v : Value} (h : Readable maxDepth v) :
    parse (utf8 v.compact) = .ok v.normal := by
  rw [Value.utf8_compact]
  exact h.parse_text .compact

end Roster.Json
