/-
**Values are written as the grammar wants it.**

What is written for a value is a text of the grammar, whatever the value: strings are spelled
character by character, the items and members of either layout are lists with commas between them,
and numbers are written without leading zeros.  For a double that rests on its shortest decimal,
whose digits are laid out with a point or with an exponent.  The text holds the value as far as a
text can, that is with its numbers as they are written; in this the two layouts do not differ.

Main definitions:

* `Roster.Json.Value.datum` — what the text of a value holds;
* `Roster.Json.IsMagnitude` — a number without a sign.

Main results:

* `Roster.Json.isString_stringText` — a text is written as a string;
* `Roster.Json.isNumber_text` — **numbers are written as the grammar wants it**;
* `Roster.Json.Value.derives` — **and so are all values**, in either layout for the same datum.
-/

import Roster.Proofs.Double
import Roster.Proofs.Json.Grammar

set_option relaxedAutoImplicit false
set_option autoImplicit false

namespace Roster.Json

/-! ### What a text holds -/

mutual

/-- What the text of a value holds. -/
def Value.datum : Value → Datum
  | .null => .null
  | .bool b => .bool b
  | .number n => .number n.text
  | .string t => .string t
  | .array items => .array (itemData items)
  | .object members => .object (memberData members)

/-- What the texts of items hold. -/
def itemData : List Value → List Datum
  | [] => []
  | v :: rest => v.datum :: itemData rest

/-- What the texts of members hold. -/
def memberData : List (String × Value) → List (String × Datum)
  | [] => []
  | (k, v) :: rest => (k, v.datum) :: memberData rest

end

@[simp] theorem itemData_eq (items : List Value) : itemData items = items.map Value.datum := by
  induction items with
  | nil => rfl
  | cons v items ih => rw [itemData, ih, List.map_cons]

@[simp] theorem memberData_eq (members : List (String × Value)) :
    memberData members = members.map fun m => (m.1, m.2.datum) := by
  induction members with
  | nil => rfl
  | cons m members ih => rw [memberData, ih, List.map_cons]

/-! ### Strings -/

theorem mem_letters_of_lettered : ∀ m ∈ lettered, (m.1.toNat, m.2) ∈ letters := by
  simp [lettered, letters]

/-- A character is spelled by what it is written as. -/
theorem spells_escaped (c : Char) : Spells c ((String.utf8EncodeChar c).flatMap escaped) := by
  by_cases hc : c.toNat < 0x80
  · have hbyte : c.toNat.toUInt8.toNat = c.toNat := by
      rw [Nat.toUInt8, UInt8.toNat_ofNat', Nat.mod_eq_of_lt (by omega)]
    rw [utf8EncodeChar_of_lt hc, List.flatMap_singleton]
    generalize hb : c.toNat.toUInt8 = b at hbyte
    cases h : escape? b with
    | none =>
        obtain ⟨hquote, hslash, hcontrol⟩ := ne_of_escape?_eq_none h
        have hne : ∀ {d : UInt8}, b ≠ d → c.toNat ≠ d.toNat := by
          intro d hd heq
          exact hd (UInt8.toNat_inj.1 (hbyte.trans heq))
        have hself : Spells c (String.utf8EncodeChar c) :=
          .itself (by rw [← hbyte]; exact UInt8.not_lt.1 hcontrol) (hne hquote) (hne hslash)
        rw [utf8EncodeChar_of_lt hc, hb] at hself
        rw [escaped, h]
        exact hself
    | some e =>
        rw [escaped, h, Option.getD_some]
        obtain ⟨letter, hmem, rfl⟩ | ⟨hlt, rfl⟩ := escape?_eq_some h
        · refine .letter ?_
          rw [← hbyte]
          exact mem_letters_of_lettered _ hmem
        · have hlt : b.toNat < 0x20 := UInt8.lt_iff_toNat_lt.1 hlt
          have hzero : hexValue? 0x30 = some 0 := by decide
          exact .number (.digits hzero hzero (hexValue?_hexDigit _ (by omega))
            (hexValue?_hexDigit _ (by omega)) (by omega))
  · rw [flatMap_escaped_of_le (Nat.not_lt.1 hc)]
    exact .itself (by omega) (by omega) (by omega)

theorem isString_stringText (t : String) : IsString t (stringText t) := by
  rw [stringText, utf8_eq_flatMap, List.flatMap_assoc]
  refine .quoted ?_
  induction t.toList with
  | nil => exact .nil
  | cons c cs ih => exact .cons (spells_escaped c) ih

/-! ### Numbers -/

/-- A number without a sign. -/
def IsMagnitude (w : Bytes) : Prop :=
  ∃ i f e, w = i ++ (f ++ e) ∧ IsWhole i ∧ IsFraction f ∧ IsExponent e

theorem IsMagnitude.whole {i : Bytes} (h : IsWhole i) : IsMagnitude i :=
  ⟨i, [], [], by simp, h, .none, .none⟩

theorem IsMagnitude.fraction {i w : Bytes} (h : IsWhole i) (hw : IsDigits w) :
    IsMagnitude (i ++ 0x2e :: w) :=
  ⟨i, 0x2e :: w, [], by simp, h, .digits hw, .none⟩

/-- A magnitude is a number, and so it is behind a minus sign. -/
theorem IsMagnitude.number {w : Bytes} (h : IsMagnitude w) (negative : Bool) :
    IsNumber ((if negative then [0x2d] else []) ++ w) := by
  obtain ⟨i, f, e, rfl, hi, hf, he⟩ := h
  cases negative with
  | false =>
      show IsNumber (i ++ (f ++ e))
      exact .unsigned hi hf he
  | true =>
      show IsNumber (0x2d :: (i ++ (f ++ e)))
      exact .signed hi hf he

theorem isDigits_decimal (n : Nat) : IsDigits (decimal n) :=
  ⟨decimal_ne_nil n, fun _ hb => isDigit_of_mem_decimal hb⟩

/-- Only zero itself begins with a zero. -/
theorem decimal_eq_cons {n : Nat} (hn : 0 < n) :
    ∃ d ds, decimal n = d :: ds ∧ isDigit d = true ∧ d ≠ 0x30 ∧ ∀ b ∈ ds, isDigit b = true := by
  obtain ⟨hne, hdigits⟩ := isDigits_decimal n
  have hhead := head?_decimal hn
  cases hd : decimal n with
  | nil => exact absurd hd hne
  | cons d ds =>
      rw [hd] at hdigits hhead
      exact ⟨d, ds, rfl, hdigits d List.mem_cons_self, by simpa using hhead,
        fun b hb => hdigits b (List.mem_cons_of_mem d hb)⟩

theorem isWhole_decimal (n : Nat) : IsWhole (decimal n) := by
  rcases Nat.eq_zero_or_pos n with rfl | hpos
  · rw [decimal]
    exact .zero
  · obtain ⟨d, ds, heq, hd, hzero, hds⟩ := decimal_eq_cons hpos
    rw [heq]
    exact .digits hd hzero hds

theorem isNumber_signedDecimal (n : Int) : IsNumber (signedDecimal n) := by
  cases n with
  | ofNat n => exact (IsMagnitude.whole (isWhole_decimal n)).number false
  | negSucc n => exact (IsMagnitude.whole (isWhole_decimal (n + 1))).number true

theorem isDigits_replicate_append (n : Nat) {w : Bytes} (h : IsDigits w) :
    IsDigits (List.replicate n 0x30 ++ w) := by
  refine ⟨by simp [h.1], ?_⟩
  intro b hb
  rcases List.mem_append.1 hb with hb | hb
  · rw [List.eq_of_mem_replicate hb]
    decide
  · exact h.2 b hb

/-- Digits with zeros up to the units. -/
theorem isMagnitude_units {c n : Nat} (h : c = 0 → n = 0) :
    IsMagnitude (decimal c ++ List.replicate n 0x30 ++ utf8 ".0") := by
  have hpoint : utf8 ".0" = [0x2e, 0x30] := by decide
  have hzero : IsDigits [0x30] := ⟨by simp, by simp [isDigit]⟩
  have hwhole : IsWhole (decimal c ++ List.replicate n 0x30) := by
    rcases Nat.eq_zero_or_pos c with rfl | hpos
    · rw [h rfl, List.replicate_zero, List.append_nil]
      exact isWhole_decimal 0
    · obtain ⟨d, ds, heq, hd, hne, hds⟩ := decimal_eq_cons hpos
      rw [heq]
      refine .digits hd hne fun b hb => ?_
      rcases List.mem_append.1 hb with hb | hb
      · exact hds b hb
      · rw [List.eq_of_mem_replicate hb]
        decide
  rw [hpoint]
  exact .fraction hwhole hzero

/-- Digits with a point among them. -/
theorem isMagnitude_pointed {c n : Nat} (hc : 0 < c) (hn : n + 1 < (decimal c).length) :
    IsMagnitude ((decimal c).take (n + 1) ++ 0x2e :: (decimal c).drop (n + 1)) := by
  obtain ⟨d, ds, heq, hd, hne, hds⟩ := decimal_eq_cons hc
  rw [heq] at hn ⊢
  rw [List.length_cons] at hn
  refine .fraction (.digits hd hne fun b hb => hds b (List.mem_of_mem_take hb)) ⟨?_, ?_⟩
  · intro hnil
    have hlength := List.drop_eq_nil_iff.1 hnil
    simp only [List.length_cons] at hlength
    omega
  · intro b hb
    rw [List.drop_succ_cons] at hb
    exact hds b (List.mem_of_mem_drop hb)

/-- Digits behind a point and zeros. -/
theorem isMagnitude_small (c n : Nat) :
    IsMagnitude (utf8 "0." ++ List.replicate n 0x30 ++ decimal c) := by
  have hpoint : utf8 "0." = [0x30, 0x2e] := by decide
  rw [hpoint, List.append_assoc]
  exact .fraction .zero (isDigits_replicate_append n (isDigits_decimal c))

/-- Digits with a point behind the first one, if there are others, and an exponent. -/
theorem isMagnitude_scientific (c n : Nat) {sign : UInt8} (hsign : sign = 0x2b ∨ sign = 0x2d) :
    IsMagnitude ((match decimal c with
      | [d] => [d]
      | d :: rest => d :: 0x2e :: rest
      | [] => []) ++ 0x65 :: sign :: decimal n) := by
  have hexponent : IsExponent (0x65 :: sign :: decimal n) :=
    .digits (.inl rfl) (.inr (hsign.imp (congrArg (fun b => [b])) (congrArg (fun b => [b]))))
      (isDigits_decimal n)
  have hwhole : ∀ d, isDigit d = true → IsWhole [d] := by
    intro d hd
    by_cases hzero : d = 0x30
    · exact hzero ▸ .zero
    · exact .digits hd hzero (by simp)
  obtain ⟨hne, hdigits⟩ := isDigits_decimal c
  match hc : decimal c with
  | [] => exact absurd hc hne
  | [d] =>
      rw [hc] at hdigits
      exact ⟨[d], [], _, rfl, hwhole d (hdigits d List.mem_cons_self), .none, hexponent⟩
  | d :: d' :: rest =>
      rw [hc] at hdigits
      obtain ⟨hd, hrest⟩ := List.forall_mem_cons.1 hdigits
      exact ⟨[d], 0x2e :: d' :: rest, _, rfl, hwhole d hd, .digits ⟨by simp, hrest⟩, hexponent⟩

theorem isNumber_doubleText (x : Double) : IsNumber (doubleText x) := by
  unfold doubleText
  dsimp only
  split
  · have hzero : utf8 "0.0" = decimal 0 ++ List.replicate 0 0x30 ++ utf8 ".0" := by
      rw [decimal]
      decide
    rw [hzero]
    exact (isMagnitude_units fun _ => rfl).number _
  rename_i hx
  have hunits := Double.shortest_eq_zero (by simpa using hx)
  generalize x.shortest = y at hunits
  obtain ⟨c, k⟩ := y
  dsimp only at hunits ⊢
  refine IsMagnitude.number ?_ _
  have hlength : 0 < (decimal c).length := List.length_pos_iff.2 (decimal_ne_nil c)
  split
  · exact isMagnitude_units fun hc => by rw [hunits hc]; rfl
  split
  · -- the last digit stands behind the point, so the digits are not zero
    have hpos : 0 < c := by
      rcases Nat.eq_zero_or_pos c with rfl | hpos
      · have hk := hunits rfl
        omega
      · exact hpos
    exact isMagnitude_pointed hpos (by omega)
  split
  · exact isMagnitude_small c _
  · refine isMagnitude_scientific c _ ?_
    split
    · exact .inr rfl
    · exact .inl rfl

/-- **Numbers are written as the grammar wants it.** -/
theorem isNumber_text (n : Number) : IsNumber n.text := by
  cases n with
  | integer n => exact isNumber_signedDecimal n
  | double x => exact isNumber_doubleText x

/-! ### Lists -/

/-- Entries that are joined with the separator of a layout are listed, if blanks may stand in front of
each of them. -/
theorem listed_joined {α : Type} (entry : α → Bytes → Prop) (style : Style) (xs : List (α × Bytes))
    (hne : xs ≠ []) (h : ∀ x ∈ xs, ∀ b, IsBlanks b → entry x.1 (b ++ x.2)) {lead : Bytes}
    (hlead : IsBlanks lead) :
    Listed entry (xs.map Prod.fst) (lead ++ joined style.separator true (xs.map Prod.snd)) := by
  obtain ⟨blanks, hsep, hblanks⟩ := separator_eq style
  rw [hsep]
  induction xs generalizing lead with
  | nil => contradiction
  | cons x xs ih =>
      have hx := h x List.mem_cons_self lead hlead
      cases xs with
      | nil => simpa [joined] using Listed.last hx
      | cons y ys =>
          -- the blanks behind a comma stand in front of the next entry
          have hrest := ih (by simp) (fun z hz => h z (List.mem_cons_of_mem x hz)) hblanks
          simpa [joined] using Listed.more hx hrest

theorem derives_element {d : Datum} {b w : Bytes} (hb : IsBlanks b) (h : Derives (.value d) w) :
    Derives (.element d) (b ++ w) := by
  have helement := Derives.element hb h isBlanks_nil
  rwa [List.append_nil] at helement

theorem derives_member {style : Style} {m : String × Value} {b : Bytes} (hb : IsBlanks b)
    (h : Derives (.value m.2.datum) (m.2.text style)) :
    Derives (.member (m.1, m.2.datum)) (b ++ memberText style m) := by
  obtain ⟨blanks, hcolon, hblanks⟩ := colon_eq style
  have hmember := Derives.member hb (isString_stringText m.1) isBlanks_nil
    (derives_element hblanks h)
  simpa [memberText, hcolon] using hmember

/-! ### Values -/

/-- **Values are written as the grammar wants it**, in either layout for the same datum. -/
theorem Value.derives (style : Style) (v : Value) : Derives (.value v.datum) (v.text style) := by
  induction v with
  | null =>
      have htext : Value.null.text style = [0x6e, 0x75, 0x6c, 0x6c] := by cases style <;> decide
      rw [htext, Value.datum]
      exact .null
  | bool b =>
      cases b with
      | false =>
          have htext : (Value.bool false).text style = [0x66, 0x61, 0x6c, 0x73, 0x65] := by
            cases style <;> decide
          rw [htext, Value.datum]
          exact .falsity
      | true =>
          have htext : (Value.bool true).text style = [0x74, 0x72, 0x75, 0x65] := by
            cases style <;> decide
          rw [htext, Value.datum]
          exact .truth
  | number n =>
      rw [text_number, Value.datum]
      exact .number (isNumber_text n)
  | string s =>
      rw [text_string, Value.datum]
      exact .string (isString_stringText s)
  | array items ih =>
      rw [text_array, Value.datum, itemData_eq]
      cases items with
      | nil => exact .emptyArray isBlanks_nil
      | cons v items =>
          have hlisted := listed_joined (fun d w => Derives (.element d) w) style
            ((v :: items).map fun v => (v.datum, v.text style)) (by simp)
            (List.forall_mem_map.2 fun v hv b hb => derives_element hb (ih v hv)) isBlanks_nil
          rw [List.map_map, List.map_map] at hlisted
          exact .array (derives_elements_iff.2 hlisted)
  | object members ih =>
      rw [text_object, Value.datum, memberData_eq]
      cases members with
      | nil => exact .emptyObject isBlanks_nil
      | cons m members =>
          have hlisted := listed_joined (fun m w => Derives (.member m) w) style
            ((m :: members).map fun m => ((m.1, m.2.datum), memberText style m)) (by simp)
            (List.forall_mem_map.2 fun m hm b hb => derives_member hb (ih m hm)) isBlanks_nil
          rw [List.map_map, List.map_map] at hlisted
          exact .object (derives_members_iff.2 hlisted)

/-- In particular so are the values that a reader gives back. -/
theorem Readable.derives {depth : Nat} {v : Value} (_ : Readable depth v) (style : Style) :
    Derives (.value v.datum) (v.text style) :=
  v.derives style

end Roster.Json
