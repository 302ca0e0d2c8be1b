/-
**The grammar of JSON.**

The readers of this library follow the grammar of JSON by looking at one byte after the other.  Here
the grammar itself is written down, apart from every reader: which texts there are, and which data
each of them holds.  The members of an object stay as the text has them, in their order and with
their repetitions, and a number stays the bytes that it is written with, since a reader may make of
both what it likes.  A string is spelled character by character, so that every escape stands for a
whole character and half a surrogate pair for none.

Main definitions:

* `Roster.Json.Datum` — what a text holds;
* `Roster.Json.IsNumber`, `Roster.Json.IsString` — the numbers and the strings;
* `Roster.Json.Derives` — **the grammar**: a text of a value, with or without blanks around it, of
  some elements and of some members;
* `Roster.Json.Listed` — lists of whatever entries.

Main results:

* `Roster.Json.Derives.head` — the first byte of a value;
* `Roster.Json.derives_elements_iff`, `Roster.Json.derives_members_iff` — elements and members are
  lists of their kind.
-/

import Roster.Proofs.Json.Compact

set_option relaxedAutoImplicit false
set_option autoImplicit false

namespace Roster.Json

/-! ### Data -/

/-- What a text holds. -/
inductive Datum where
  | null
  | bool (b : Bool)
  /-- A number, as it is written. -/
  | number (text : Bytes)
  | string (t : String)
  | array (items : List Datum)
  /-- An object, with its members in the order of the text. -/
  | object (members : List (String × Datum))
  deriving Inhabited

/-- Induction on data: what holds of an array if it holds of its items, and of an object if it holds
of the data of its members, holds of all. -/
@[elab_as_elim, induction_eliminator]
theorem Datum.ind {motive : Datum → Prop} (null : motive .null) (bool : ∀ b, motive (.bool b))
    (number : ∀ w, motive (.number w)) (string : ∀ t, motive (.string t))
    (array : ∀ items, (∀ d ∈ items, motive d) → motive (.array items))
    (object : ∀ members, (∀ m ∈ members, motive m.2) → motive (.object members)) (d : Datum) :
    motive d :=
  @Datum.rec motive (fun items => ∀ d ∈ items, motive d) (fun members => ∀ m ∈ members, motive m.2)
    (fun m => motive m.2) null bool number string array object
    (fun _ h => nomatch h) (fun _ _ hd hds => List.forall_mem_cons.2 ⟨hd, hds⟩)
    (fun _ h => nomatch h) (fun _ _ hm hms => List.forall_mem_cons.2 ⟨hm, hms⟩)
    (fun _ _ hd => hd) d

/-- What stands under a key, in the order of the text. -/
def dataUnder (key : String) (members : List (String × Datum)) : List Datum :=
  (members.filter fun m => m.1 = key).map Prod.snd

theorem dataUnder_cons_self (key : String) (d : Datum) (ms : List (String × Datum)) :
    dataUnder key ((key, d) :: ms) = d :: dataUnder key ms := by
  simp [dataUnder]

theorem dataUnder_cons_of_ne {key key' : String} (h : key' ≠ key) (d : Datum)
    (ms : List (String × Datum)) : dataUnder key ((key', d) :: ms) = dataUnder key ms := by
  simp [dataUnder, h]

/-! ### Blanks and numbers -/

/-- Nothing but blanks. -/
def IsBlanks (w : Bytes) : Prop := ∀ b ∈ w, isBlank b = true

/-- Digits, one at least. -/
def IsDigits (w : Bytes) : Prop := w ≠ [] ∧ ∀ b ∈ w, isDigit b = true

/-- The digits of an integer: only zero itself begins with a zero. -/
inductive IsWhole : Bytes → Prop where
  /-- Zero. -/
  | zero : IsWhole [0x30]
  /-- Any other number. -/
  | digits {d : UInt8} {ds : Bytes} (hd : isDigit d = true) (hzero : d ≠ 0x30)
      (hds : ∀ b ∈ ds, isDigit b = true) : IsWhole (d :: ds)

/-- A point with digits, or nothing. -/
inductive IsFraction : Bytes → Prop where
  /-- No fraction. -/
  | none : IsFraction []
  /-- A point and the digits behind it. -/
  | digits {w : Bytes} (h : IsDigits w) : IsFraction (0x2e :: w)

/-- The letter of an exponent with a sign or without one and with digits, or nothing. -/
inductive IsExponent : Bytes → Prop where
  /-- No exponent. -/
  | none : IsExponent []
  /-- A letter in either case, a sign or none, and digits. -/
  | digits {letter : UInt8} {sign w : Bytes} (hletter : letter = 0x65 ∨ letter = 0x45)
      (hsign : sign = [] ∨ sign = [0x2b] ∨ sign = [0x2d]) (h : IsDigits w) :
      IsExponent (letter :: (sign ++ w))

/-- A number. -/
inductive IsNumber : Bytes → Prop where
  /-- A number without a sign. -/
  | unsigned {i f e : Bytes} (hi : IsWhole i) (hf : IsFraction f) (he : IsExponent e) :
      IsNumber (i ++ (f ++ e))
  /-- A number behind a minus sign. -/
  | signed {i f e : Bytes} (hi : IsWhole i) (hf : IsFraction f) (he : IsExponent e) :
      IsNumber (0x2d :: (i ++ (f ++ e)))

/-! ### Strings -/

/-- The characters that have an escape by letter, each with its letter. -/
def letters : List (Nat × UInt8) :=
  [(0x22, 0x22), (0x5c, 0x5c), (0x2f, 0x2f), (0x08, 0x62), (0x0c, 0x66), (0x0a, 0x6e),
    (0x0d, 0x72), (0x09, 0x74)]

/-- Four hexadecimal digits, in either case, of a number. -/
inductive IsHex (n : Nat) : Bytes → Prop where
  /-- The four digits. -/
  | digits {a b c d : UInt8} {i j k l : Nat} (ha : hexValue? a = some i)
      (hb : hexValue? b = some j) (hc : hexValue? c = some k) (hd : hexValue? d = some l)
      (hn : n = ((i * 16 + j) * 16 + k) * 16 + l) : IsHex n [a, b, c, d]

/-- How a character may be spelled in a string. -/
inductive Spells (c : Char) : Bytes → Prop where
  /-- A character that is neither a control nor a quote nor a backslash stands for itself. -/
  | itself (hcontrol : 0x20 ≤ c.toNat) (hquote : c.toNat ≠ 0x22) (hslash : c.toNat ≠ 0x5c) :
      Spells c (String.utf8EncodeChar c)
  /-- A backslash and a letter. -/
  | letter {l : UInt8} (h : (c.toNat, l) ∈ letters) : Spells c [0x5c, l]
  /-- A backslash and the number of the character. -/
  | number {w : Bytes} (h : IsHex c.toNat w) : Spells c (0x5c :: 0x75 :: w)
  /-- Two such numbers, which are the halves of a surrogate pair. -/
  | pair {high low : Nat} {w w' : Bytes} (hhigh : 0xd800 ≤ high ∧ high ≤ 0xdbff)
      (hlow : 0xdc00 ≤ low ∧ low ≤ 0xdfff)
      (hc : c.toNat = (high - 0xd800) * 0x400 + (low - 0xdc00) + 0x10000)
      (hw : IsHex high w) (hw' : IsHex low w') :
      Spells c (0x5c :: 0x75 :: (w ++ 0x5c :: 0x75 :: w'))

/-- The spellings of some characters, one behind the other. -/
inductive IsContent : List Char → Bytes → Prop where
  /-- No character. -/
  | nil : IsContent [] []
  /-- One more character. -/
  | cons {c : Char} {cs : List Char} {w w' : Bytes} (h : Spells c w) (h' : IsContent cs w') :
      IsContent (c :: cs) (w ++ w')

/-- A string: the spellings of the characters of a text, between quotes. -/
inductive IsString (t : String) : Bytes → Prop where
  /-- The quotes and what is between them. -/
  | quoted {w : Bytes} (h : IsContent t.toList w) : IsString t (0x22 :: (w ++ [0x22]))

/-! ### Values -/

/-- What a rule of the grammar is about. -/
inductive Phrase where
  /-- A value. -/
  | value (d : Datum)
  /-- A value with blanks around it. -/
  | element (d : Datum)
  /-- Elements with commas between them, one at least. -/
  | elements (ds : List Datum)
  /-- A key and an element, with a colon between them. -/
  | member (m : String × Datum)
  /-- Members with commas between them, one at least. -/
  | members (ms : List (String × Datum))

/-- **The grammar of JSON**: some bytes are a text of a phrase. -/
inductive Derives : Phrase → Bytes → Prop where
  /-- The word for the null value. -/
  | null : Derives (.value .null) [0x6e, 0x75, 0x6c, 0x6c]
  /-- The word for truth. -/
  | truth : Derives (.value (.bool true)) [0x74, 0x72, 0x75, 0x65]
  /-- The word for falsehood. -/
  | falsity : Derives (.value (.bool false)) [0x66, 0x61, 0x6c, 0x73, 0x65]
  /-- A number. -/
  | number {w : Bytes} (h : IsNumber w) : Derives (.value (.number w)) w
  /-- A string. -/
  | string {t : String} {w : Bytes} (h : IsString t w) : Derives (.value (.string t)) w
  /-- Brackets with nothing but blanks between them. -/
  | emptyArray {b : Bytes} (hb : IsBlanks b) : Derives (.value (.array [])) (0x5b :: (b ++ [0x5d]))
  /-- Elements between brackets. -/
  | array {ds : List Datum} {w : Bytes} (h : Derives (.elements ds) w) :
      Derives (.value (.array ds)) (0x5b :: (w ++ [0x5d]))
  /-- Braces with nothing but blanks between them. -/
  | emptyObject {b : Bytes} (hb : IsBlanks b) :
      Derives (.value (.object [])) (0x7b :: (b ++ [0x7d]))
  /-- Members between braces. -/
  | object {ms : List (String × Datum)} {w : Bytes} (h : Derives (.members ms) w) :
      Derives (.value (.object ms)) (0x7b :: (w ++ [0x7d]))
  /-- A value with blanks around it. -/
  | element {d : Datum} {b w b' : Bytes} (hb : IsBlanks b) (h : Derives (.value d) w)
      (hb' : IsBlanks b') : Derives (.element d) (b ++ (w ++ b'))
  /-- The last element. -/
  | lastElement {d : Datum} {w : Bytes} (h : Derives (.element d) w) : Derives (.elements [d]) w
  /-- An element and those behind it. -/
  | moreElements {d : Datum} {ds : List Datum} {w w' : Bytes} (h : Derives (.element d) w)
      (h' : Derives (.elements ds) w') : Derives (.elements (d :: ds)) (w ++ 0x2c :: w')
  /-- A key with blanks around it, a colon and an element. -/
  | member {key : String} {d : Datum} {b k b' w : Bytes} (hb : IsBlanks b) (hk : IsString key k)
      (hb' : IsBlanks b') (h : Derives (.element d) w) :
      Derives (.member (key, d)) (b ++ (k ++ (b' ++ 0x3a :: w)))
  /-- The last member. -/
  | lastMember {m : String × Datum} {w : Bytes} (h : Derives (.member m) w) :
      Derives (.members [m]) w
  /-- A member and those behind it. -/
  | moreMembers {m : String × Datum} {ms : List (String × Datum)} {w w' : Bytes}
      (h : Derives (.member m) w) (h' : Derives (.members ms) w') :
      Derives (.members (m :: ms)) (w ++ 0x2c :: w')

/-! ### First bytes -/

theorem isBlanks_nil : IsBlanks [] := by simp [IsBlanks]

theorem IsWhole.head {w : Bytes} (h : IsWhole w) : ∃ d rest, w = d :: rest ∧ isDigit d = true := by
  cases h with
  | zero => exact ⟨0x30, [], rfl, by decide⟩
  | digits hd => exact ⟨_, _, rfl, hd⟩

theorem IsNumber.head {w : Bytes} (h : IsNumber w) :
    ∃ b rest, w = b :: rest ∧ (isDigit b = true ∨ b = 0x2d) := by
  cases h with
  | unsigned hi _ _ =>
      obtain ⟨d, rest, rfl, hd⟩ := hi.head
      exact ⟨d, _, rfl, .inl hd⟩
  | signed => exact ⟨0x2d, _, rfl, .inr rfl⟩

/-- The first byte of a value is no blank and does not end an array, and only a string begins with
a quote. -/
theorem Derives.head {d : Datum} {w : Bytes} (h : Derives (.value d) w) :
    ∃ b rest, w = b :: rest ∧ isBlank b = false ∧ b ≠ 0x5d ∧
      (b = 0x22 → ∃ t, d = .string t) := by
  cases h with
  | null | truth | falsity | emptyArray | array | emptyObject | object =>
      exact ⟨_, _, rfl, by decide, by decide, fun hb => absurd hb (by decide)⟩
  | number h =>
      obtain ⟨b, rest, rfl, hdigit | rfl⟩ := h.head
      · exact ⟨b, rest, rfl, isBlank_of_isDigit hdigit, ne_of_isDigit hdigit (by decide),
          fun hb => absurd hb (ne_of_isDigit hdigit (by decide))⟩
      · exact ⟨0x2d, rest, rfl, by decide, by decide, fun hb => absurd hb (by decide)⟩
  | @string t _ h =>
      cases h
      exact ⟨0x22, _, rfl, by decide, by decide, fun _ => ⟨t, rfl⟩⟩

/-! ### Lists -/

/-- Entries with commas between them, one at least. -/
inductive Listed {α : Type} (entry : α → Bytes → Prop) : List α → Bytes → Prop where
  /-- The last entry. -/
  | last {a : α} {w : Bytes} (h : entry a w) : Listed entry [a] w
  /-- An entry and those behind it. -/
  | more {a : α} {as : List α} {w w' : Bytes} (h : entry a w) (h' : Listed entry as w') :
      Listed entry (a :: as) (w ++ 0x2c :: w')

/-- Elements are a list of elements. -/
theorem derives_elements_iff {ds : List Datum} {w : Bytes} :
    Derives (.elements ds) w ↔ Listed (fun d w => Derives (.element d) w) ds w := by
  constructor
  · intro h
    induction ds generalizing w with
    | nil => cases h
    | cons d ds ih =>
        cases h with
        | lastElement h => exact .last h
        | moreElements h h' => exact .more h (ih h')
  · intro h
    induction h with
    | last h => exact .lastElement h
    | more h _ ih => exact .moreElements h ih

/-- Members are a list of members. -/
theorem derives_members_iff {ms : List (String × Datum)} {w : Bytes} :
    Derives (.members ms) w ↔ Listed (fun m w => Derives (.member m) w) ms w := by
  constructor
  · intro h
    induction ms generalizing w with
    | nil => cases h
    | cons m ms ih =>
        cases h with
        | lastMember h => exact .last h
        | moreMembers h h' => exact .more h (ih h')
  · intro h
    induction h with
    | last h => exact .lastMember h
    | more h _ ih => exact .moreMembers h ih

end Roster.Json
