/-
**Values are read back.**

The text of a value is read back as the value, except that the members of its objects come out in
the order of their keys.  The reader has a limit on brackets within each other and keeps integers
of 64 bits only, so this is said of the values within these limits; doubles, whose texts are
rounded, are left aside.

The proof follows the value.  Each reader takes the text of its kind of value and leaves what
follows (`Roster.Json.Reads`), and the loops over items and members undo the joining of texts
(`Roster.Json.foldEntries_joined`), so that a layout matters only through its separators.

Main definitions:

* `Roster.Json.Readable` — the values within the limits of a reader;
* `Roster.Json.Value.normal` — a value with the members of its objects in the order of their keys.

Main results:

* `Roster.Json.Readable.reads` — **the text of a value is read back**, whatever follows it.
-/

import Roster.Proofs.Json.Members
import Roster.Proofs.Json.Numbers
import Roster.Proofs.Json.Strings

set_option relaxedAutoImplicit false
set_option autoImplicit false

namespace Roster.Json

/-! ### Values as they are read -/

mutual

/-- A value with the members of its objects in the order of their keys. -/
def Value.normal : Value → Value
  | .array items => .array (normalItems items)
  | .object members => .object (memberMap (normalMembers members))
  | v => v

/-- Items in that form. -/
def normalItems : List Value → List Value
  | [] => []
  | v :: rest => v.normal :: normalItems rest

/-- Members with their values in that form. -/
def normalMembers : List (String × Value) → List (String × Value)
  | [] => []
  | (k, v) :: rest => (k, v.normal) :: normalMembers rest

end

@[simp] theorem normalItems_eq (items : List Value) :
    normalItems items = items.map Value.normal := by
  induction items with
  | nil => rfl
  | cons v items ih => rw [normalItems, ih, List.map_cons]

@[simp] theorem normalMembers_eq (members : List (String × Value)) :
    normalMembers members = members.map fun m => (m.1, m.2.normal) := by
  induction members with
  | nil => rfl
  | cons m members ih => rw [normalMembers, ih, List.map_cons]

/-- The values that a reader gives back which may open `depth` brackets within each other. -/
inductive Readable : Nat → Value → Prop where
  /-- The null value. -/
  | null (depth : Nat) : Readable depth .null
  /-- A truth value. -/
  | bool (depth : Nat) (b : Bool) : Readable depth (.bool b)
  /-- An integer of 64 bits, signed or unsigned. -/
  | integer (depth : Nat) {n : Int} (hmin : -(UInt64.size / 2 : Nat) ≤ n)
      (hmax : n < UInt64.size) : Readable depth (.number (.integer n))
  /-- A text. -/
  | string (depth : Nat) (s : String) : Readable depth (.string s)
  /-- Readable items, one bracket less being left for them. -/
  | array {depth : Nat} {items : List Value} (h : ∀ v ∈ items, Readable depth v) :
      Readable (depth + 1) (.array items)
  /-- Readable members, one bracket less being left for them. -/
  | object {depth : Nat} {members : List (String × Value)}
      (h : ∀ m ∈ members, Readable depth m.2) : Readable (depth + 1) (.object members)

/-! ### Texts and separators -/

/-- The bytes that hold a document together are no blanks. -/
@[simp] theorem isBlank_structural :
    isBlank 0x22 = false ∧ isBlank 0x2c = false ∧ isBlank 0x3a = false ∧ isBlank 0x5b = false ∧
      isBlank 0x5d = false ∧ isBlank 0x7b = false ∧ isBlank 0x7d = false := by
  decide

@[simp] theorem skipBlank_of_not_isBlank {b : UInt8} (h : isBlank b = false) (s : Bytes) :
    skipBlank (b :: s) = b :: s := by
  simp [skipBlank, h]

/-- A text that begins with neither a blank nor the end of an array. -/
def Opens (text : Bytes) : Prop :=
  ∃ b rest, text = b :: rest ∧ isBlank b = false ∧ b ≠ 0x5d

/-- The text of a string. -/
def stringText (s : String) : Bytes := 0x22 :: ((utf8 s).flatMap escaped ++ [0x22])

/-- The text of a member. -/
def memberText (style : Style) (m : String × Value) : Bytes :=
  stringText m.1 ++ style.colon ++ m.2.text style

theorem itemPieces_flatten (style : Style) (first : Bool) (vs : List Value) :
    (itemPieces style first vs).flatten = joined style.separator first (vs.map (·.text style)) := by
  induction vs generalizing first with
  | nil => rfl
  | cons v vs ih => cases first <;> simp [itemPieces, joined, ih, Value.text]

theorem memberPieces_flatten (style : Style) (first : Bool) (ms : List (String × Value)) :
    (memberPieces style first ms).flatten =
      joined style.separator first (ms.map (memberText style)) := by
  induction ms generalizing first with
  | nil => rfl
  | cons m ms ih =>
      cases first <;>
        simp [memberPieces, joined, ih, Value.text, memberText, stringText,
          stringPieces_flatten]

theorem text_number (style : Style) (n : Number) : (Value.number n).text style = n.text := by
  simp [Value.text, Value.pieces]

theorem text_integer (style : Style) (n : Int) :
    (Value.number (.integer n)).text style = signedDecimal n :=
  text_number style (.integer n)

theorem text_string (style : Style) (s : String) : (Value.string s).text style = stringText s := by
  simp [Value.text, Value.pieces, stringPieces_flatten, stringText]

theorem text_array (style : Style) (vs : List Value) :
    (Value.array vs).text style =
      0x5b :: (joined style.separator true (vs.map (·.text style)) ++ [0x5d]) := by
  simp [Value.text, Value.pieces, itemPieces_flatten]

theorem text_object (style : Style) (ms : List (String × Value)) :
    (Value.object ms).text style =
      0x7b :: (joined style.separator true (ms.map (memberText style)) ++ [0x7d]) := by
  simp [Value.text, Value.pieces, memberPieces_flatten]

theorem skipBlank_append {blanks : Bytes} (h : ∀ b ∈ blanks, isBlank b = true) (s : Bytes) :
    skipBlank (blanks ++ s) = skipBlank s := by
  induction blanks with
  | nil => rfl
  | cons b blanks ih =>
      have hb := h b List.mem_cons_self
      simp only [List.cons_append, skipBlank, hb, if_true]
      exact ih fun b hb => h b (List.mem_cons_of_mem _ hb)

/-- The items of an array are separated by a comma, with blanks after it or not. -/
theorem separated_items {blanks : Bytes} (hb : ∀ b ∈ blanks, isBlank b = true) :
    Separated nextItem (0x2c :: blanks) 0x5d Opens where
  first := by
    rintro text ⟨b, rest, rfl, hblank, hclose⟩ tail
    simp [nextItem, hblank, hclose]
  later := by
    rintro text ⟨b, rest, rfl, hblank, hclose⟩ tail
    simp [nextItem, skipBlank_append hb, hblank, hclose]
  finish := by
    intro first rest
    simp [nextItem]
  ends_sep := fun _ => ⟨by decide, by decide, by decide, by decide⟩
  ends_close := fun _ => ⟨by decide, by decide, by decide, by decide⟩

/-- The members of an object are separated by a comma, with blanks after it or not. -/
theorem separated_members {blanks : Bytes} (hb : ∀ b ∈ blanks, isBlank b = true) :
    Separated nextMember (0x2c :: blanks) 0x7d (fun text => ∃ rest, text = 0x22 :: rest) where
  first := by
    rintro text ⟨rest, rfl⟩ tail
    simp [nextMember]
  later := by
    rintro text ⟨rest, rfl⟩ tail
    simp [nextMember, skipBlank_append hb]
  finish := by
    intro first rest
    simp [nextMember]
  ends_sep := fun _ => ⟨by decide, by decide, by decide, by decide⟩
  ends_close := fun _ => ⟨by decide, by decide, by decide, by decide⟩

/-- The separator of a layout is a comma, with blanks after it or not. -/
theorem separator_eq (style : Style) :
    ∃ blanks, style.separator = 0x2c :: blanks ∧ ∀ b ∈ blanks, isBlank b = true := by
  cases style with
  | compact => exact ⟨[], rfl, by simp⟩
  | spaced => exact ⟨[0x20], rfl, by simp [isBlank]⟩

/-- What stands between a key and its value is a colon, with blanks after it or not. -/
theorem colon_eq (style : Style) :
    ∃ blanks, style.colon = 0x3a :: blanks ∧ ∀ b ∈ blanks, isBlank b = true := by
  cases style with
  | compact => exact ⟨[], rfl, by simp⟩
  | spaced => exact ⟨[0x20], rfl, by simp [isBlank]⟩

/-! ### Scalars -/

/-- What a value is read with when it may open `depth` brackets: a reader for what stands within
them, unless there may be none. -/
def within : Nat → Option (Reader Value)
  | 0 => none
  | depth + 1 => some (value depth)

theorem value_run (depth : Nat) (s : Bytes) : (value depth).run s = readValue (within depth) s := by
  cases depth <;> rfl

theorem readValue_append_of_isBlank {blanks : Bytes} (h : ∀ b ∈ blanks, isBlank b = true)
    (inner : Option (Reader Value)) (s : Bytes) :
    readValue inner (blanks ++ s) = readValue inner s := by
  rw [readValue, readValue, skipBlank_append h]

theorem readValue_null (inner : Option (Reader Value)) (rest : Bytes) :
    readValue inner (utf8 "null" ++ rest) = .ok (.null, rest) := by
  have h : utf8 "null" = [0x6e, 0x75, 0x6c, 0x6c] := by decide
  have hb : isBlank 0x6e = false := by decide
  simp [h, readValue, hb, readWordValue, readWord]

theorem readValue_bool (inner : Option (Reader Value)) (b : Bool) (style : Style)
    (rest : Bytes) :
    readValue inner ((Value.bool b).text style ++ rest) = .ok (.bool b, rest) := by
  cases b with
  | false =>
      have h : (Value.bool false).text style = [0x66, 0x61, 0x6c, 0x73, 0x65] := by
        cases style <;> decide
      have hb : isBlank 0x66 = false := by decide
      simp [h, readValue, hb, readWordValue, readWord]
  | true =>
      have h : (Value.bool true).text style = [0x74, 0x72, 0x75, 0x65] := by
        cases style <;> decide
      have hb : isBlank 0x74 = false := by decide
      simp [h, readValue, hb, readWordValue, readWord]

theorem readValue_string (inner : Option (Reader Value)) (s : String) (rest : Bytes) :
    readValue inner (stringText s ++ rest) = .ok (.string s, rest) := by
  have hd : isDigit 0x22 = false := by decide
  have hread := readString_escaped s rest
  simp [readValue, stringText, hd, hread]

theorem ne_of_isDigit {b c : UInt8} (h : isDigit b = true) (hc : isDigit c = false) : b ≠ c := by
  rintro rfl
  rw [h] at hc
  contradiction

theorem isBlank_of_isDigit {b : UInt8} (h : isDigit b = true) : isBlank b = false := by
  have h1 : b ≠ 0x20 := ne_of_isDigit h (by decide)
  have h2 : b ≠ 0x0a := ne_of_isDigit h (by decide)
  have h3 : b ≠ 0x09 := ne_of_isDigit h (by decide)
  have h4 : b ≠ 0x0d := ne_of_isDigit h (by decide)
  simp [isBlank, h1, h2, h3, h4]

/-- A digit starts a number without a sign. -/
theorem readValue_digit {b : UInt8} (h : isDigit b = true) (inner : Option (Reader Value))
    (rest : Bytes) :
    readValue inner (b :: rest) =
      (readNumber true (b :: rest)).map (Prod.map Value.number id) := by
  have hnull : b ≠ 0x6e := ne_of_isDigit h (by decide)
  have htrue : b ≠ 0x74 := ne_of_isDigit h (by decide)
  have hfalse : b ≠ 0x66 := ne_of_isDigit h (by decide)
  have hsign : b ≠ 0x2d := ne_of_isDigit h (by decide)
  simp only [readValue, skipBlank_of_not_isBlank (isBlank_of_isDigit h), if_neg hnull, if_neg htrue,
    if_neg hfalse, if_neg hsign, if_pos h]
  cases readNumber true (b :: rest) <;> rfl

theorem readValue_minus (inner : Option (Reader Value)) (rest : Bytes) :
    readValue inner (0x2d :: rest) = (readNumber false rest).map (Prod.map Value.number id) := by
  have hblank : isBlank 0x2d = false := by decide
  rw [readValue, skipBlank_of_not_isBlank hblank]
  rcases hnumber : readNumber false rest with e | ⟨n, tail⟩ <;> simp [hnumber, Except.map]

/-- An integer of 64 bits, signed or unsigned, is read back. -/
theorem readValue_integer (inner : Option (Reader Value)) {n : Int}
    (hmin : -(UInt64.size / 2 : Nat) ≤ n) (hmax : n < UInt64.size) {rest : Bytes}
    (h : Ends rest) :
    readValue inner (signedDecimal n ++ rest) = .ok (.number (.integer n), rest) := by
  cases n with
  | ofNat n =>
      have hn : n ≤ maxSignificand := by
        simp only [maxSignificand]
        simp only [Int.ofNat_eq_natCast, UInt64.size] at hmax ⊢
        omega
      have hread := readNumber_decimal true hn h
      simp only [signedDecimal] at hread ⊢
      cases hd : decimal n with
      | nil => exact absurd hd (decimal_ne_nil n)
      | cons d ds =>
          rw [hd] at hread
          have hdigit : isDigit d = true := isDigit_of_mem_decimal (hd ▸ List.mem_cons_self)
          rw [List.cons_append] at hread ⊢
          rw [readValue_digit hdigit, hread]
          rfl
  | negSucc n =>
      have hn : n + 1 ≤ UInt64.size / 2 := by
        simp only [UInt64.size] at hmin ⊢
        omega
      have hn' : n + 1 ≤ maxSignificand := by
        simp only [maxSignificand, UInt64.size] at hn ⊢
        omega
      have hread := readNumber_decimal false hn' h
      have hfit : fitting false (n + 1) = .integer (Int.negSucc n) := by
        simp [fitting, hn, Int.negSucc_eq]
      rw [signedDecimal, List.cons_append, readValue_minus, hread, hfit]
      rfl

/-! ### Arrays and objects -/

/-- The text of a readable value begins with neither a blank nor the end of an array. -/
theorem Readable.opens {depth : Nat} {v : Value} (h : Readable depth v) (style : Style) :
    Opens (v.text style) := by
  cases h with
  | null => exact ⟨0x6e, [0x75, 0x6c, 0x6c], by cases style <;> decide, by decide, by decide⟩
  | bool _ b =>
      cases b with
      | false =>
          exact ⟨0x66, [0x61, 0x6c, 0x73, 0x65], by cases style <;> decide, by decide, by decide⟩
      | true => exact ⟨0x74, [0x72, 0x75, 0x65], by cases style <;> decide, by decide, by decide⟩
  | @integer _ n _ _ =>
      cases n with
      | ofNat n =>
          cases hd : decimal n with
          | nil => exact absurd hd (decimal_ne_nil n)
          | cons d ds =>
              have hdigit : isDigit d = true := isDigit_of_mem_decimal (hd ▸ List.mem_cons_self)
              have htext : (Value.number (.integer (.ofNat n))).text style = d :: ds := by
                rw [text_integer, signedDecimal, hd]
              exact ⟨d, ds, htext, isBlank_of_isDigit hdigit, ne_of_isDigit hdigit (by decide)⟩
      | negSucc n => exact ⟨0x2d, decimal (n + 1), text_integer style _, by decide, by decide⟩
  | string _ s => exact ⟨0x22, _, text_string style s, by decide, by decide⟩
  | array => exact ⟨0x5b, _, text_array style _, by decide, by decide⟩
  | object => exact ⟨0x7b, _, text_object style _, by decide, by decide⟩

/-- A value whose text is read back wherever it stands among others. -/
def Recovered (depth : Nat) (style : Style) (v : Value) : Prop :=
  Opens (v.text style) ∧ Reads (value depth) (v.text style) v.normal

/-- The loop over items undoes the joining of their texts. -/
theorem foldItems_joined {σ : Type} {depth : Nat} {style : Style} {blanks : Bytes}
    (hb : ∀ b ∈ blanks, isBlank b = true) {vs : List Value}
    (h : ∀ v ∈ vs, Recovered depth style v) (step : σ → Value → σ) (acc : σ) (rest : Bytes) :
    foldItems (value depth) step acc
        (joined (0x2c :: blanks) true (vs.map (·.text style)) ++ 0x5d :: rest) =
      ((vs.map Value.normal).foldl step acc, .ok rest) := by
  have hfold := foldEntries_joined nextItem_length (separated_items hb) (value depth) step
    (vs.map fun v => (v.text style, v.normal)) (fun x hx => by
      obtain ⟨v, hv, rfl⟩ := List.mem_map.1 hx
      exact h v hv) true acc rest
  simpa [foldItems, Function.comp_def] using hfold

/-- A member is read back if its value is. -/
theorem reads_member {depth : Nat} {style : Style} {m : String × Value}
    (h : Reads (value depth) (m.2.text style) m.2.normal) :
    Reads (member (value depth)) (memberText style m) (m.1, m.2.normal) := by
  intro rest hrest
  obtain ⟨blanks, hcolon, hb⟩ := colon_eq style
  have hkey := readString_escaped m.1 (style.colon ++ m.2.text style ++ rest)
  have hreadColon : readColon (style.colon ++ m.2.text style ++ rest) =
      .ok (blanks ++ (m.2.text style ++ rest)) := by
    simp [readColon, hcolon]
  have hvalue : (value depth).run (blanks ++ (m.2.text style ++ rest)) =
      .ok (m.2.normal, rest) := by
    rw [value_run, readValue_append_of_isBlank hb, ← value_run]
    exact h rest hrest
  simp only [List.append_assoc] at hkey hreadColon
  simp [member, readMember, memberText, stringText, hkey, hreadColon, hvalue]

/-- The loop over members undoes the joining of their texts. -/
theorem foldMembers_joined {σ : Type} {depth : Nat} {style : Style}
    {ms : List (String × Value)} (h : ∀ m ∈ ms, Recovered depth style m.2)
    (step : σ → String × Value → σ) (acc : σ) (rest : Bytes) :
    foldMembers (value depth) step acc
        (joined style.separator true (ms.map (memberText style)) ++ 0x7d :: rest) =
      ((ms.map fun m => (m.1, m.2.normal)).foldl step acc, .ok rest) := by
  obtain ⟨blanks, hsep, hb⟩ := separator_eq style
  have hfold := foldEntries_joined nextMember_length (separated_members hb)
    (member (value depth)) step (ms.map fun m => (memberText style m, (m.1, m.2.normal)))
    (fun x hx => by
      obtain ⟨m, hm, rfl⟩ := List.mem_map.1 hx
      exact ⟨⟨_, rfl⟩, reads_member (h m hm).2⟩) true acc rest
  rw [hsep]
  simpa [foldMembers, Function.comp_def] using hfold

/-- **The text of a value is read back**, whatever follows it. -/
theorem Readable.reads {depth : Nat} {v : Value} (h : Readable depth v) (style : Style) :
    Reads (value depth) (v.text style) v.normal := by
  -- within a bracket the reader has one level less, and so has the derivation
  induction h with
  | null depth =>
      intro rest _
      rw [value_run]
      have htext : Value.null.text style = utf8 "null" := by simp [Value.text, Value.pieces]
      rw [htext]
      exact readValue_null _ rest
  | bool depth b =>
      intro rest _
      rw [value_run]
      exact readValue_bool _ b style rest
  | @integer depth n hmin hmax =>
      intro rest hrest
      rw [value_run, text_integer]
      exact readValue_integer _ hmin hmax hrest
  | string depth s =>
      intro rest _
      rw [value_run, text_string]
      exact readValue_string _ s rest
  | @array depth items h ih =>
      intro rest _
      obtain ⟨blanks, hsep, hb⟩ := separator_eq style
      have hitems := foldItems_joined hb (fun v hv => ⟨(h v hv).opens style, ih v hv⟩)
        (fun (l : List Value) v => v :: l) [] rest
      have hdigit : isDigit 0x5b = false := by decide
      rw [← hsep] at hitems
      rw [value_run, text_array]
      simp [within, readValue, hdigit, readArray, hitems, Value.normal]
  | @object depth members h ih =>
      intro rest _
      have hmembers := foldMembers_joined (fun m hm => ⟨(h m hm).opens style, ih m hm⟩)
        (fun (l : List (String × Value)) m => insertMember m.1 m.2 l) [] rest
      have hdigit : isDigit 0x7b = false := by decide
      rw [value_run, text_object]
      simp [within, readValue, hdigit, readObject, hmembers, Value.normal, memberMap]

theorem Readable.recovered {depth : Nat} {v : Value} (h : Readable depth v) (style : Style) :
    Recovered depth style v :=
  ⟨h.opens style, h.reads style⟩

end Roster.Json
