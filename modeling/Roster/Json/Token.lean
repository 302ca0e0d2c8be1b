/-
**The tokens of a JSON text.**

Blanks, words, strings and numbers are read from the front of the input.  Each reader gives what
it has read together with the rest of the input, and the rest is shorter than the input: that is
what makes every loop over an input end.

Main definitions:

* `Roster.Json.Read` — the outcome of reading: a result and the rest, or a fault;
* `Roster.Json.skipBlank`, `Json.readWord`, `Json.readString`, `Json.readNumber` — the tokens;
* `Roster.Json.readNumber` keeps integers of 64 bits as they are and turns all other numbers into
  doubles.

Main results:

* `Roster.Json.readString_length`, `Roster.Json.readNumber_length` — the rest is shorter.
-/

import Roster.Json.Fault
import Roster.Json.Value

set_option relaxedAutoImplicit false
set_option autoImplicit false

namespace Roster.Json

/-- What a reader gives: a result and the rest of the input, or a fault. -/
abbrev Read (α : Type) := Except Fault (α × Bytes)

/-! ### Blanks and words -/

/-- The byte is a space, a tab, a line feed or a carriage return. -/
def isBlank (b : UInt8) : Bool := b = 0x20 || b = 0x0a || b = 0x09 || b = 0x0d

/-- The input without the blanks it starts with. -/
def skipBlank : Bytes → Bytes
  | [] => []
  | b :: rest => if isBlank b then skipBlank rest else b :: rest

theorem skipBlank_length (s : Bytes) : (skipBlank s).length ≤ s.length := by
  induction s with
  | nil => simp [skipBlank]
  | cons b s ih =>
    simp only [skipBlank]
    split
    · simp only [List.length_cons]
      omega
    · simp

/-- Reads the bytes of a word. -/
def readWord : Bytes → Bytes → Except Fault Bytes
  | [], s => .ok s
  | _ :: _, [] => .error (.before .endInValue [])
  | c :: word, b :: rest =>
    if b = c then readWord word rest else .error (.before .expectedWord rest)

theorem readWord_length {word s r : Bytes} (h : readWord word s = .ok r) :
    r.length ≤ s.length := by
  induction word generalizing s with
  | nil => simp_all [readWord]
  | cons c word ih =>
    cases s with
    | nil => simp [readWord] at h
    | cons b s =>
      simp only [readWord] at h
      split at h
      · have := ih h
        simp only [List.length_cons]
        omega
      · simp at h

/-! ### Strings -/

/-- Reads four hexadecimal digits. -/
def readHex : Bytes → Read Nat
  | a :: b :: c :: d :: rest =>
    match hexValue? a, hexValue? b, hexValue? c, hexValue? d with
    | some a, some b, some c, some d => .ok (((a * 16 + b) * 16 + c) * 16 + d, rest)
    | _, _, _, _ => .error (.before .invalidEscape rest)
  | _ => .error (.before .endInString [])

theorem readHex_length {s r : Bytes} {n : Nat} (h : readHex s = .ok (n, r)) :
    r.length < s.length := by
  unfold readHex at h
  split at h
  · split at h
    · simp only [Except.ok.injEq, Prod.mk.injEq] at h
      simp [← h.2]
      omega
    · simp at h
  · simp at h

/-- The UTF-8 bytes of a code point. -/
def codePoint (n : Nat) : Bytes := String.utf8EncodeChar (Char.ofNat n)

/-- Reads the second half of a surrogate pair, the first half being `high`. -/
def readSecondHalf (high : Nat) : Bytes → Read Bytes
  | [] => .error (.before .endInString [])
  | b :: rest =>
    if b = 0x5c then
      match rest with
      | [] => .error (.before .endInString [])
      | c :: rest =>
        if c = 0x75 then
          match readHex rest with
          | .error e => .error e
          | .ok (low, rest) =>
            if 0xdc00 ≤ low ∧ low ≤ 0xdfff then
              .ok (codePoint ((high - 0xd800) * 0x400 + (low - 0xdc00) + 0x10000), rest)
            else .error (.before .loneSurrogate rest)
        else .error (.before .endOfEscape rest)
    else .error (.before .endOfEscape rest)

/-- Reads what follows a backslash, and gives the bytes that it stands for. -/
def readEscape : Bytes → Read Bytes
  | [] => .error (.before .endInString [])
  | b :: rest =>
    if b = 0x22 ∨ b = 0x5c ∨ b = 0x2f then .ok ([b], rest)
    else if b = 0x62 then .ok ([0x08], rest)
    else if b = 0x66 then .ok ([0x0c], rest)
    else if b = 0x6e then .ok ([0x0a], rest)
    else if b = 0x72 then .ok ([0x0d], rest)
    else if b = 0x74 then .ok ([0x09], rest)
    else if b = 0x75 then
      match readHex rest with
      | .error e => .error e
      | .ok (n, rest) =>
        -- the second half of a pair has to follow the first one
        if 0xdc00 ≤ n ∧ n ≤ 0xdfff then .error (.before .loneSurrogate rest)
        else if 0xd800 ≤ n ∧ n ≤ 0xdbff then readSecondHalf n rest
        else .ok (codePoint n, rest)
    else .error (.before .invalidEscape rest)

theorem readSecondHalf_length {high : Nat} {s r b : Bytes}
    (h : readSecondHalf high s = .ok (b, r)) : r.length < s.length := by
  unfold readSecondHalf at h
  split at h
  · simp at h
  split at h
  · split at h
    · simp at h
    split at h
    · split at h
      · simp at h
      rename_i hx
      have := readHex_length hx
      split at h
      · simp only [Except.ok.injEq, Prod.mk.injEq] at h
        simp only [← h.2, List.length_cons]
        omega
      · simp at h
    · simp at h
  · simp at h

theorem readEscape_length {s r b : Bytes} (h : readEscape s = .ok (b, r)) :
    r.length < s.length := by
  unfold readEscape at h
  split at h
  · simp at h
  rename_i c rest
  by_cases hu : c = 0x75
  · subst hu
    simp only [
      show ¬((0x75 : UInt8) = 0x22 ∨ (0x75 : UInt8) = 0x5c ∨ (0x75 : UInt8) = 0x2f) by decide,
      show ¬(0x75 : UInt8) = 0x62 by decide, show ¬(0x75 : UInt8) = 0x66 by decide,
      show ¬(0x75 : UInt8) = 0x6e by decide, show ¬(0x75 : UInt8) = 0x72 by decide,
      show ¬(0x75 : UInt8) = 0x74 by decide, if_false, if_true] at h
    split at h
    · simp at h
    rename_i hx
    have := readHex_length hx
    split at h
    · simp at h
    split at h
    · have := readSecondHalf_length h
      simp only [List.length_cons]
      omega
    · simp only [Except.ok.injEq, Prod.mk.injEq] at h
      simp only [← h.2, List.length_cons]
      omega
  · simp only [hu, if_false] at h
    repeat' split at h
    all_goals
      first
      | (simp at h; done)
      | (simp only [Except.ok.injEq, Prod.mk.injEq] at h
         simp [← h.2])

/-- Reads the bytes of a string up to its closing quote, `done` being those before, the last one
first. -/
def readContent (done : Bytes) (s : Bytes) : Read Bytes :=
  match s with
  | [] => .error (.before .endInString [])
  | b :: rest =>
    if b = 0x22 then .ok (done.reverse, rest)
    else if b = 0x5c then
      match _he : readEscape rest with
      | .error e => .error e
      | .ok (bytes, rest') => readContent (bytes.reverse ++ done) rest'
    else if b < 0x20 then .error (.before .controlCharacter rest)
    else readContent (b :: done) rest
termination_by s.length
decreasing_by
  · have := readEscape_length _he
    simp only [List.length_cons]
    omega
  · simp

theorem readContent_length {done s r b : Bytes} (h : readContent done s = .ok (b, r)) :
    r.length < s.length := by
  fun_induction readContent done s with
  | case1 => simp at h
  | case2 =>
    simp only [Except.ok.injEq, Prod.mk.injEq] at h
    simp [h.2]
  | case3 => simp at h
  | case4 _ _ _ _ he _ ih =>
    have := readEscape_length he
    have := ih h
    simp only [List.length_cons]
    omega
  | case5 => simp at h
  | case6 _ _ _ _ _ _ ih =>
    have := ih h
    simp only [List.length_cons]
    omega

/-- How many bytes the character at the start of some bytes has, if they start with one. -/
def characterLength? (s : Bytes) : Option Nat :=
  [1, 2, 3, 4].find? fun k => (text? (s.take k)).isSome

/-- How many bytes there are from the first one on that belongs to no character; so many bytes of
the current character are still to come. -/
def malformedLength (pending : Nat) : Bytes → Nat
  | [] => 0
  | b :: rest =>
    match pending with
    | k + 1 => malformedLength k rest
    | 0 =>
      match characterLength? (b :: rest) with
      | some k => malformedLength (k - 1) rest
      | none => rest.length + 1

/-- Reads a string whose opening quote has been read.  If its content is not UTF-8, the fault lies
as far before the end of the string as the content goes on from the first byte that belongs to no
character; an escape counts as the bytes that it stands for. -/
def readString (s : Bytes) : Read String :=
  match readContent [] s with
  | .error e => .error e
  | .ok (bytes, rest) =>
    match text? bytes with
    | some t => .ok (t, rest)
    | none => .error ⟨.invalidCodePoint, rest.length + malformedLength 0 bytes, .before⟩

theorem readString_length {s r : Bytes} {t : String} (h : readString s = .ok (t, r)) :
    r.length < s.length := by
  unfold readString at h
  split at h
  · simp at h
  · rename_i hc
    have := readContent_length hc
    split at h
    · simp_all
    · simp at h

/-! ### Numbers -/

/-- The largest significand that is kept exactly. -/
def maxSignificand : Nat := UInt64.size - 1

/-- Digits taken from the front of an input. -/
structure Digits where
  /-- The number they form, after what came before them. -/
  value : Nat
  count : Nat
  rest : Bytes

/-- Takes digits as long as the number they form, after `n`, is at most `limit`; `k` digits have
been taken before. -/
def takeDigits (limit : Nat) : Nat → Nat → Bytes → Digits
  | n, k, [] => ⟨n, k, []⟩
  | n, k, b :: rest =>
    if isDigit b && n * 10 + digitValue b ≤ limit then
      takeDigits limit (n * 10 + digitValue b) (k + 1) rest
    else ⟨n, k, b :: rest⟩

/-- The number of digits that the input starts with. -/
def countDigits (s : Bytes) : Nat := (s.takeWhile isDigit).length

/-- The input without the digits that it starts with. -/
def dropDigits (s : Bytes) : Bytes := s.dropWhile isDigit

/-- The input starts with a digit. -/
def startsWithDigit : Bytes → Bool
  | b :: _ => isDigit b
  | [] => false

theorem takeDigits_length (limit n k : Nat) (s : Bytes) :
    (takeDigits limit n k s).rest.length ≤ s.length := by
  induction s generalizing n k with
  | nil => simp [takeDigits]
  | cons b s ih =>
    simp only [takeDigits]
    split
    · have := ih (n * 10 + digitValue b) (k + 1)
      simp only [List.length_cons]
      omega
    · simp

theorem dropDigits_length (s : Bytes) : (dropDigits s).length ≤ s.length :=
  (List.dropWhile_sublist _).length_le

/-- A magnitude divided by a power of ten, in steps of at most `10 ^ 308`. -/
def divideTen (x : Double) (k : Nat) : Double :=
  if h : k ≤ 308 then x.div (.tenPow k)
  else if x.isZero then x
  else divideTen (x.div (.tenPow 308)) (k - 308)
termination_by k

/-- The double `significand * 10 ^ exponent`, computed by rounding the significand and then
multiplying or dividing once; `none` if it is too large. -/
def scaled? (significand : Nat) (exponent : Int) : Option Double :=
  let x := Double.ofNat significand
  match exponent with
  | .ofNat k =>
    if k ≤ 308 then
      let y := x.mul (.tenPow k)
      if y.isInfinite then none else some y
    -- no power of ten beyond this one is a double, and only zero needs none
    else if x.isZero then some x
    else none
  | .negSucc k => some (divideTen x (k + 1))

/-- The double that the parts of a number denote, before the rest of the input. -/
def assemble (positive : Bool) (significand : Nat) (exponent : Int) (rest : Bytes) : Read Number :=
  match scaled? significand exponent with
  | none => .error (.seen .numberOutOfRange rest)
  | some x => .ok (.double (if positive then x else x.negate), rest)

/-- The largest exponent that is read. -/
def maxExponent : Nat := UInt32.size / 2 - 1

/-- Reads the digits of an exponent, and gives the number. -/
def readExponentDigits (positive : Bool) (significand : Nat) (start : Int) (up : Bool) :
    Bytes → Read Number
  | [] => .error (.before .endInValue [])
  | b :: rest =>
    if isDigit b then
      let d := takeDigits maxExponent (digitValue b) 0 rest
      if startsWithDigit d.rest then
        if significand ≠ 0 ∧ up then .error (.before .numberOutOfRange (d.rest.drop 1))
        else
          .ok (.double (if positive then Double.zero else Double.zero.negate), dropDigits d.rest)
      else assemble positive significand (if up then start + d.value else start - d.value) d.rest
    else .error (.before .invalidNumber rest)

/-- Reads an exponent whose letter has been read: an optional sign, and digits. -/
def readExponent (positive : Bool) (significand : Nat) (start : Int) (s : Bytes) : Read Number :=
  match s with
  | b :: rest =>
    if b = 0x2b then readExponentDigits positive significand start true rest
    else if b = 0x2d then readExponentDigits positive significand start false rest
    else readExponentDigits positive significand start true s
  | [] => readExponentDigits positive significand start true s

/-- Reads an optional exponent, and gives the number. -/
def readTail (positive : Bool) (significand : Nat) (exponent : Int) (s : Bytes) : Read Number :=
  match s with
  | b :: rest =>
    if b = 0x65 ∨ b = 0x45 then readExponent positive significand exponent rest
    else assemble positive significand exponent s
  | [] => assemble positive significand exponent s

/-- Reads the digits after a point.  Digits that the significand has no room for are dropped. -/
def readFraction (positive : Bool) (significand : Nat) (exponent : Int) (s : Bytes) :
    Read Number :=
  let d := takeDigits maxSignificand significand 0 s
  if startsWithDigit d.rest then
    readTail positive d.value (exponent - d.count) (dropDigits d.rest)
  else if d.count = 0 then
    .error (.onto (if d.rest.isEmpty then .endInValue else .invalidNumber) d.rest)
  else readTail positive d.value (exponent - d.count) d.rest

/-- The number of an integer that fits, with its sign: an integer if it is one of 64 bits, signed
or unsigned, else a double.  Zero with a sign is a double. -/
def fitting (positive : Bool) (n : Nat) : Number :=
  if positive then .integer n
  else if 0 < n ∧ n ≤ UInt64.size / 2 then .integer (-n)
  else .double (Double.ofNat n).negate

/-- Reads what follows the digits of an integer. -/
def readIntegerTail (positive : Bool) (significand : Nat) (s : Bytes) : Read Number :=
  match s with
  | b :: rest =>
    if b = 0x2e then readFraction positive significand 0 rest
    else if b = 0x65 ∨ b = 0x45 then readExponent positive significand 0 rest
    else .ok (fitting positive significand, s)
  | [] => .ok (fitting positive significand, s)

/-- Reads the rest of an integer that has too many digits: each of them is a power of ten. -/
def readLong (positive : Bool) (significand : Nat) (s : Bytes) : Read Number :=
  match dropDigits s with
  | b :: rest =>
    if b = 0x2e then readFraction positive significand (countDigits s) rest
    else readTail positive significand (countDigits s) (b :: rest)
  | [] => readTail positive significand (countDigits s) []

/-- Reads a number whose sign has been read. -/
def readNumber (positive : Bool) : Bytes → Read Number
  | [] => .error (.before .endInValue [])
  | b :: rest =>
    if b = 0x30 then
      if startsWithDigit rest then .error (.onto .invalidNumber rest)
      else readIntegerTail positive 0 rest
    else if isDigit b then
      let d := takeDigits maxSignificand (digitValue b) 0 rest
      if startsWithDigit d.rest then readLong positive d.value d.rest
      else readIntegerTail positive d.value d.rest
    else .error (.before .invalidNumber rest)

/-! ### The rest of a number is shorter -/

theorem assemble_length {p : Bool} {n : Nat} {e : Int} {s r : Bytes} {v : Number}
    (h : assemble p n e s = .ok (v, r)) : r.length ≤ s.length := by
  unfold assemble at h
  split at h <;> simp_all

theorem readExponentDigits_length {p up : Bool} {n : Nat} {e : Int} {s r : Bytes} {v : Number}
    (h : readExponentDigits p n e up s = .ok (v, r)) : r.length ≤ s.length := by
  cases s with
  | nil => simp [readExponentDigits] at h
  | cons b s =>
    simp only [readExponentDigits] at h
    have ht := takeDigits_length maxExponent (digitValue b) 0 s
    have hd := dropDigits_length (takeDigits maxExponent (digitValue b) 0 s).rest
    simp only [List.length_cons]
    split at h
    · split at h
      · split at h
        · simp at h
        · simp only [Except.ok.injEq, Prod.mk.injEq] at h
          rw [← h.2]
          omega
      · have := assemble_length h
        omega
    · simp at h

theorem readExponent_length {p : Bool} {n : Nat} {e : Int} {s r : Bytes} {v : Number}
    (h : readExponent p n e s = .ok (v, r)) : r.length ≤ s.length := by
  unfold readExponent at h
  repeat' split at h
  all_goals
    have := readExponentDigits_length h
    simp_all
    try omega

theorem readTail_length {p : Bool} {n : Nat} {e : Int} {s r : Bytes} {v : Number}
    (h : readTail p n e s = .ok (v, r)) : r.length ≤ s.length := by
  unfold readTail at h
  split at h
  · split at h
    · have := readExponent_length h
      simp only [List.length_cons]
      omega
    · exact assemble_length h
  · exact assemble_length h

theorem readFraction_length {p : Bool} {n : Nat} {e : Int} {s r : Bytes} {v : Number}
    (h : readFraction p n e s = .ok (v, r)) : r.length ≤ s.length := by
  have ht := takeDigits_length maxSignificand n 0 s
  have hd := dropDigits_length (takeDigits maxSignificand n 0 s).rest
  simp only [readFraction] at h
  split at h
  · have := readTail_length h
    omega
  · split at h
    · simp at h
    · have := readTail_length h
      omega

theorem readIntegerTail_length {p : Bool} {n : Nat} {s r : Bytes} {v : Number}
    (h : readIntegerTail p n s = .ok (v, r)) : r.length ≤ s.length := by
  unfold readIntegerTail at h
  split at h
  · split at h
    · have := readFraction_length h
      simp only [List.length_cons]
      omega
    · split at h
      · have := readExponent_length h
        simp only [List.length_cons]
        omega
      · simp_all
  · simp_all

theorem readLong_length {p : Bool} {n : Nat} {s r : Bytes} {v : Number}
    (h : readLong p n s = .ok (v, r)) : r.length ≤ s.length := by
  have hd := dropDigits_length s
  unfold readLong at h
  split at h
  · rename_i hs
    rw [hs] at hd
    split at h
    · have := readFraction_length h
      simp only [List.length_cons] at hd
      omega
    · have := readTail_length h
      omega
  · have := readTail_length h
    simp only [List.length_nil] at this
    omega

theorem readNumber_length {p : Bool} {s r : Bytes} {v : Number}
    (h : readNumber p s = .ok (v, r)) : r.length < s.length := by
  cases s with
  | nil => simp [readNumber] at h
  | cons b s =>
    have ht := takeDigits_length maxSignificand (digitValue b) 0 s
    simp only [readNumber] at h
    simp only [List.length_cons]
    split at h
    · split at h
      · simp at h
      · have := readIntegerTail_length h
        omega
    · split at h
      · split at h
        · have := readLong_length h
          omega
        · have := readIntegerTail_length h
          omega
      · simp at h

end Roster.Json
