/-
**Skipping a JSON value.**

A value under a key that nobody asked for is checked for its grammar only: its strings are not
decoded, its numbers are not computed, and it may be nested as deeply as it likes, since the open
brackets are kept in a list and not in the recursion.

Main definitions:

* `Roster.Json.skipValue` — the rest of an input after one value.
-/

import Roster.Json.Reader

set_option relaxedAutoImplicit false
set_option autoImplicit false

namespace Roster.Json

/-! ### Strings and numbers -/

/-- Skips a string whose opening quote has been read. -/
def skipString : Bytes → Except Fault Bytes
  | [] => .error (.before .endInString [])
  | b :: rest =>
    if b = 0x22 then .ok rest
    else if b = 0x5c then
      match rest with
      | [] => .error (.before .endInString [])
      | c :: rest =>
        if c = 0x75 then
          match rest with
          | w :: x :: y :: z :: rest =>
            if (hexValue? w).isSome && (hexValue? x).isSome && (hexValue? y).isSome
                && (hexValue? z).isSome then skipString rest
            else .error (.before .invalidEscape rest)
          | _ => .error (.before .endInString [])
        else if c = 0x22 ∨ c = 0x5c ∨ c = 0x2f ∨ c = 0x62 ∨ c = 0x66 ∨ c = 0x6e ∨ c = 0x72
            ∨ c = 0x74 then skipString rest
        else .error (.before .invalidEscape rest)
    else if b < 0x20 then .error (.before .controlCharacter (b :: rest))
    else skipString rest

/-- The input without the sign that it may start with. -/
def dropSign : Bytes → Bytes
  | [] => []
  | b :: rest => if b = 0x2b ∨ b = 0x2d then rest else b :: rest

/-- Skips an exponent whose letter has been read. -/
def skipExponent (s : Bytes) : Except Fault Bytes :=
  if startsWithDigit (dropSign s) then .ok (dropDigits (dropSign s))
  else .error (.before .invalidNumber ((dropSign s).drop 1))

/-- Skips what follows the digits of a number: an optional fraction and an optional exponent. -/
def skipTail (s : Bytes) : Except Fault Bytes :=
  match s with
  | [] => .ok []
  | b :: rest =>
    if b = 0x2e then
      if startsWithDigit rest then
        match dropDigits rest with
        | [] => .ok []
        | c :: rest => if c = 0x65 ∨ c = 0x45 then skipExponent rest else .ok (c :: rest)
      else .error (.onto .invalidNumber rest)
    else if b = 0x65 ∨ b = 0x45 then skipExponent rest
    else .ok (b :: rest)

/-- Skips a number whose sign has been read. -/
def skipNumber : Bytes → Except Fault Bytes
  | [] => .error (.before .invalidNumber [])
  | b :: rest =>
    if b = 0x30 then
      if startsWithDigit rest then .error (.onto .invalidNumber rest) else skipTail rest
    else if isDigit b then skipTail (dropDigits rest)
    else .error (.before .invalidNumber rest)

theorem skipString_length {s r : Bytes} (h : skipString s = .ok r) : r.length < s.length := by
  fun_induction skipString s
  all_goals simp_all
  all_goals omega

theorem dropSign_length (s : Bytes) : (dropSign s).length ≤ s.length := by
  unfold dropSign
  split
  · simp
  · split <;> simp

theorem skipExponent_length {s r : Bytes} (h : skipExponent s = .ok r) :
    r.length ≤ s.length := by
  unfold skipExponent at h
  split at h
  · simp only [Except.ok.injEq] at h
    rw [← h]
    exact Nat.le_trans (dropDigits_length _) (dropSign_length s)
  · simp at h

theorem skipTail_length {s r : Bytes} (h : skipTail s = .ok r) : r.length ≤ s.length := by
  cases s with
  | nil => simp_all [skipTail]
  | cons b s =>
    simp only [skipTail] at h
    have hd := dropDigits_length s
    split at h
    · split at h
      · split at h
        · simp_all
        · rename_i hc
          rw [hc] at hd
          split at h
          · have := skipExponent_length h
            simp only [List.length_cons] at *
            omega
          · simp only [Except.ok.injEq] at h
            rw [← h]
            simp only [List.length_cons] at *
            omega
      · simp at h
    · split at h
      · have := skipExponent_length h
        simp only [List.length_cons]
        omega
      · simp_all

theorem skipNumber_length {s r : Bytes} (h : skipNumber s = .ok r) : r.length < s.length := by
  cases s with
  | nil => simp [skipNumber] at h
  | cons b s =>
    simp only [skipNumber] at h
    have hd := dropDigits_length s
    simp only [List.length_cons]
    split at h
    · split at h
      · simp at h
      · have := skipTail_length h
        omega
    · split at h
      · have := skipTail_length h
        omega
      · simp at h

/-! ### Values -/

/-- A bracket that is open. -/
inductive Frame where
  | array
  | object
  deriving DecidableEq, Repr

/-- Where the skipping of a value stands. -/
inductive Stage where
  /-- A value comes next. -/
  | value
  /-- A value has just ended. -/
  | ended
  /-- A bracket has just been opened. -/
  | opened
  deriving DecidableEq, Repr

/-- Skips a key with the blanks before it and the colon after it. -/
def skipKey (s : Bytes) : Except Fault Bytes :=
  match skipBlank s with
  | [] => .error (.onto .endInObject [])
  | b :: rest =>
    if b = 0x22 then
      match skipString rest with
      | .error e => .error e
      | .ok rest => readColon rest
    else .error (.onto .keyNotString (b :: rest))

/-- Skips the start of an entry up to its value. -/
def skipEntryStart : Frame → Bytes → Except Fault Bytes
  | .array, s => .ok s
  | .object, s => skipKey s

/-- Skips a value that is no array and no object. -/
def skipScalar (b : UInt8) (rest : Bytes) : Except Fault Bytes :=
  if b = 0x6e then readWord [0x75, 0x6c, 0x6c] rest
  else if b = 0x74 then readWord [0x72, 0x75, 0x65] rest
  else if b = 0x66 then readWord [0x61, 0x6c, 0x73, 0x65] rest
  else if b = 0x2d then skipNumber rest
  else if isDigit b then skipNumber (b :: rest)
  else if b = 0x22 then skipString rest
  else .error (.onto .expectedValue (b :: rest))

def Frame.closing : Frame → UInt8
  | array => 0x5d
  | object => 0x7d

/-- The fault of an input that ends within a frame. -/
def Frame.endCause : Frame → Cause
  | array => .endInList
  | object => .endInObject

/-- The fault of an entry that is followed neither by a comma nor by the end of its frame. -/
def Frame.closingCause : Frame → Cause
  | array => .expectedListEnd
  | object => .expectedObjectEnd

theorem skipKey_length {s r : Bytes} (h : skipKey s = .ok r) : r.length < s.length := by
  have hs := skipBlank_length s
  unfold skipKey at h
  split at h
  · simp at h
  rename_i hb
  rw [hb, List.length_cons] at hs
  split at h
  · split at h
    · simp at h
    rename_i ht
    have := skipString_length ht
    have := readColon_length h
    omega
  · simp at h

theorem skipEntryStart_length {f : Frame} {s r : Bytes} (h : skipEntryStart f s = .ok r) :
    r.length ≤ s.length := by
  cases f with
  | array => simp_all [skipEntryStart]
  | object => exact Nat.le_of_lt (skipKey_length h)

theorem skipScalar_length {b : UInt8} {s r : Bytes} (h : skipScalar b s = .ok r) :
    r.length ≤ s.length := by
  unfold skipScalar at h
  split at h
  · exact readWord_length h
  split at h
  · exact readWord_length h
  split at h
  · exact readWord_length h
  split at h
  · exact Nat.le_of_lt (skipNumber_length h)
  split at h
  · have := skipNumber_length h
    simp only [List.length_cons] at this
    omega
  split at h
  · exact Nat.le_of_lt (skipString_length h)
  · simp at h

/-- Skips the rest of a value, given the brackets that are open, the innermost first. -/
def skip (stage : Stage) (open' : List Frame) (s : Bytes) : Except Fault Bytes :=
  match stage, open' with
  | .value, fs =>
    match _hs : skipBlank s with
    | [] => .error (.onto .endInValue [])
    | b :: rest =>
      if b = 0x5b then skip .opened (.array :: fs) rest
      else if b = 0x7b then skip .opened (.object :: fs) rest
      else
        match _hr : skipScalar b rest with
        | .error e => .error e
        | .ok rest => skip .ended fs rest
  | .ended, [] => .ok s
  | .ended, f :: fs =>
    match _hs : skipBlank s with
    | [] => .error (.onto f.endCause [])
    | b :: rest =>
      if b = 0x2c then
        match _hr : skipEntryStart f rest with
        | .error e => .error e
        | .ok rest => skip .value (f :: fs) rest
      else if b = f.closing then skip .ended fs rest
      else .error (.onto f.closingCause (b :: rest))
  | .opened, [] => .ok s
  | .opened, f :: fs =>
    match _hs : skipBlank s with
    | [] => .error (.onto f.endCause [])
    | b :: rest =>
      if b = f.closing then skip .ended fs rest
      else
        match _hr : skipEntryStart f (b :: rest) with
        | .error e => .error e
        | .ok rest => skip .value (f :: fs) rest
-- no byte is read between the opening bracket of an array and its first item
termination_by 2 * s.length + (if stage = .opened then 1 else 0)
decreasing_by
  all_goals
    have h₁ := skipBlank_length s
    rw [_hs, List.length_cons] at h₁
    simp only [if_false, if_true]
  · omega
  · omega
  · have := skipScalar_length _hr
    omega
  · have := skipEntryStart_length _hr
    omega
  · omega
  · omega
  · have := skipEntryStart_length _hr
    simp only [List.length_cons] at this
    omega

def skipValue (s : Bytes) : Except Fault Bytes := skip .value [] s

theorem length_lt_of_skipBlank {s rest : Bytes} {b : UInt8} (h : skipBlank s = b :: rest) :
    rest.length < s.length := by
  have hs := skipBlank_length s
  rw [h, List.length_cons] at hs
  omega

theorem skip_length {stage : Stage} {fs : List Frame} {s r : Bytes}
    (h : skip stage fs s = .ok r) : r.length ≤ s.length := by
  fun_induction skip stage fs s with
  | case1 => simp at h
  | case2 _ _ _ hs ih => exact Nat.le_trans (ih h) (Nat.le_of_lt (length_lt_of_skipBlank hs))
  | case3 _ _ _ hs _ ih => exact Nat.le_trans (ih h) (Nat.le_of_lt (length_lt_of_skipBlank hs))
  | case4 => simp at h
  | case5 _ _ _ _ hs _ _ _ hr ih =>
    have := length_lt_of_skipBlank hs
    have := skipScalar_length hr
    have := ih h
    omega
  | case6 => simp_all
  | case7 => simp at h
  | case8 => simp at h
  | case9 _ _ _ _ _ hr hs ih =>
    have := length_lt_of_skipBlank hs
    have := skipEntryStart_length hr
    have := ih h
    omega
  | case10 _ _ _ _ hs _ ih => exact Nat.le_trans (ih h) (Nat.le_of_lt (length_lt_of_skipBlank hs))
  | case11 => simp at h
  | case12 => simp_all
  | case13 => simp at h
  | case14 _ _ _ _ hs ih => exact Nat.le_trans (ih h) (Nat.le_of_lt (length_lt_of_skipBlank hs))
  | case15 => simp at h
  | case16 _ _ _ _ _ hs _ _ hr ih =>
    have := length_lt_of_skipBlank hs
    have := skipEntryStart_length hr
    simp only [List.length_cons] at this
    have := ih h
    omega

theorem skipValue_length {s r : Bytes} (h : skipValue s = .ok r) : r.length ≤ s.length :=
  skip_length h

end Roster.Json
