/-
**Texts of the grammar are skipped.**

What stands under a key that nobody asked for is skipped with the open brackets in a list, so the
skipping does not follow the nesting of the value, and it goes on in the midst of whatever is around
the value.  The proof is an induction on the derivation all the same: for each phrase it says what
the skipping of a text of the phrase comes to, with any brackets open and any rest behind the text.
The strings and the keys are spelled character by character, and a reader and a skipper of strings
come to the same place.

Main definitions:

* `Roster.Json.Skips` — what skipping a text of a phrase comes to.

Main results:

* `Roster.Json.IsString.taken` — **a string is read as the text that it spells**, and skipped;
* `Roster.Json.IsNumber.taken` — a number is skipped;
* `Roster.Json.Derives.skips` — **every text of the grammar is skipped**, however it is nested.
-/

import Roster.Json.Skip
import Roster.Proofs.Json.Grammar
import Roster.Proofs.Json.Locality

set_option relaxedAutoImplicit false
set_option autoImplicit false

namespace Roster.Json

/-! ### Strings -/

/-- A byte that a string may hold as it is. -/
def IsPlain (b : UInt8) : Prop := b ≠ 0x22 ∧ b ≠ 0x5c ∧ ¬b < 0x20

theorem readContent_plain {w : Bytes} (h : ∀ b ∈ w, IsPlain b) (done z : Bytes) :
    readContent done (w ++ z) = readContent (w.reverse ++ done) z := by
  induction w generalizing done with
  | nil => rfl
  | cons b w ih =>
      obtain ⟨hquote, hslash, hcontrol⟩ := h b List.mem_cons_self
      rw [List.cons_append, readContent, if_neg hquote, if_neg hslash, if_neg hcontrol,
        ih fun c hc => h c (List.mem_cons_of_mem b hc), List.reverse_cons, List.append_assoc,
        List.singleton_append]

theorem skipString_plain {w : Bytes} (h : ∀ b ∈ w, IsPlain b) (z : Bytes) :
    skipString (w ++ z) = skipString z := by
  induction w with
  | nil => rfl
  | cons b w ih =>
      obtain ⟨hquote, hslash, hcontrol⟩ := h b List.mem_cons_self
      rw [List.cons_append, skipString.eq_def]
      simp only [if_neg hquote, if_neg hslash, if_neg hcontrol]
      exact ih fun c hc => h c (List.mem_cons_of_mem b hc)

/-- A character that stands for itself consists of plain bytes. -/
theorem isPlain_of_mem {c : Char} (hcontrol : 0x20 ≤ c.toNat) (hquote : c.toNat ≠ 0x22)
    (hslash : c.toNat ≠ 0x5c) : ∀ b ∈ String.utf8EncodeChar c, IsPlain b := by
  intro b hb
  by_cases hc : c.toNat < 0x80
  · rw [utf8EncodeChar_of_lt hc, List.mem_singleton] at hb
    have hbyte : b.toNat = c.toNat := by
      rw [hb, Nat.toUInt8, UInt8.toNat_ofNat', Nat.mod_eq_of_lt (by omega)]
    refine ⟨?_, ?_, ?_⟩
    · rintro rfl
      exact hquote hbyte.symm
    · rintro rfl
      exact hslash hbyte.symm
    · rw [UInt8.lt_iff_toNat_lt, hbyte]
      exact Nat.not_lt.2 hcontrol
  · have hle := le_of_mem_utf8EncodeChar (Nat.not_lt.1 hc) hb
    refine ⟨?_, ?_, UInt8.not_lt.2 (UInt8.le_trans (by decide) hle)⟩
    · rintro rfl
      exact absurd hle (by decide)
    · rintro rfl
      exact absurd hle (by decide)

theorem IsHex.read {n : Nat} {w : Bytes} (h : IsHex n w) (z : Bytes) :
    readHex (w ++ z) = .ok (n, z) := by
  obtain ⟨ha, hb, hc, hd, hn⟩ := h
  simp [readHex, ha, hb, hc, hd, hn]

theorem IsHex.skip {n : Nat} {w : Bytes} (h : IsHex n w) (z : Bytes) :
    skipString (0x5c :: 0x75 :: (w ++ z)) = skipString z := by
  obtain ⟨ha, hb, hc, hd, hn⟩ := h
  simp [skipString, ha, hb, hc, hd]

theorem readEscape_letters {n : Nat} {l : UInt8} (h : (n, l) ∈ letters) (z : Bytes) :
    readEscape (l :: z) = .ok ([n.toUInt8], z) := by
  simp only [letters, List.mem_cons, Prod.mk.injEq, List.not_mem_nil, or_false] at h
  rcases h with ⟨rfl, rfl⟩ | ⟨rfl, rfl⟩ | ⟨rfl, rfl⟩ | ⟨rfl, rfl⟩ | ⟨rfl, rfl⟩ | ⟨rfl, rfl⟩ |
    ⟨rfl, rfl⟩ | ⟨rfl, rfl⟩ <;> rfl

theorem skipString_letters {n : Nat} {l : UInt8} (h : (n, l) ∈ letters) (z : Bytes) :
    skipString (0x5c :: l :: z) = skipString z := by
  simp only [letters, List.mem_cons, Prod.mk.injEq, List.not_mem_nil, or_false] at h
  rcases h with ⟨rfl, rfl⟩ | ⟨rfl, rfl⟩ | ⟨rfl, rfl⟩ | ⟨rfl, rfl⟩ | ⟨rfl, rfl⟩ | ⟨rfl, rfl⟩ |
    ⟨rfl, rfl⟩ | ⟨rfl, rfl⟩ <;> exact skipString.eq_def _

theorem lt_of_mem_letters : ∀ m ∈ letters, m.1 < 0x80 := by decide

theorem codePoint_toNat (c : Char) : codePoint c.toNat = String.utf8EncodeChar c := by
  rw [codePoint, Char.ofNat_toNat]

/-- A character is read from each of its spellings. -/
theorem Spells.read {c : Char} {w : Bytes} (h : Spells c w) (done z : Bytes) :
    readContent done (w ++ z) = readContent ((String.utf8EncodeChar c).reverse ++ done) z := by
  cases h with
  | itself hcontrol hquote hslash =>
      exact readContent_plain (isPlain_of_mem hcontrol hquote hslash) done z
  | letter h =>
      rw [utf8EncodeChar_of_lt (lt_of_mem_letters _ h)]
      exact readContent_of_escape (readEscape_letters h z)
  | @number w h =>
      have hescape : readEscape (0x75 :: (w ++ z)) = .ok (codePoint c.toNat, z) := by
        -- the number of a character is no half of a pair
        have hvalid : c.toNat < 0xd800 ∨ 0xdfff < c.toNat ∧ c.toNat < 0x110000 := c.valid
        rw [readEscape_of_hex (h.read z), if_neg (by omega), if_neg (by omega)]
      rw [← codePoint_toNat]
      exact readContent_of_escape hescape
  | @pair high low w w' hhigh hlow hc hw hw' =>
      have hescape : readEscape (0x75 :: (w ++ (0x5c :: 0x75 :: (w' ++ z)))) =
          .ok (codePoint c.toNat, z) := by
        rw [readEscape_of_hex (hw.read _), if_neg (by omega), if_pos hhigh, hc]
        simp [readSecondHalf, hw'.read z, hlow]
      rw [← codePoint_toNat]
      simpa using readContent_of_escape hescape

theorem Spells.skip {c : Char} {w : Bytes} (h : Spells c w) (z : Bytes) :
    skipString (w ++ z) = skipString z := by
  cases h with
  | itself hcontrol hquote hslash =>
      exact skipString_plain (isPlain_of_mem hcontrol hquote hslash) z
  | letter h => exact skipString_letters h z
  | number h => exact h.skip z
  | pair _ _ _ hw hw' =>
      rw [List.cons_append, List.cons_append, List.append_assoc, hw.skip]
      exact hw'.skip z

theorem IsContent.read {cs : List Char} {w : Bytes} (h : IsContent cs w) (done z : Bytes) :
    readContent done (w ++ 0x22 :: z) =
      .ok (done.reverse ++ cs.flatMap String.utf8EncodeChar, z) := by
  induction h generalizing done with
  | nil => simp [readContent]
  | cons h _ ih =>
      rw [List.append_assoc, h.read, ih, List.flatMap_cons, List.reverse_append,
        List.reverse_reverse, List.append_assoc]

theorem IsContent.skip {cs : List Char} {w : Bytes} (h : IsContent cs w) (z : Bytes) :
    skipString (w ++ 0x22 :: z) = .ok z := by
  induction h with
  | nil => exact skipString.eq_def _
  | cons h _ ih => rw [List.append_assoc, h.skip, ih]

/-- **A string is read as the text that it spells**, and skipped up to the same place. -/
theorem IsString.taken {t : String} {w : Bytes} (h : IsString t w) :
    ∃ w', w = 0x22 :: w' ∧
      ∀ z, readString (w' ++ z) = .ok (t, z) ∧ skipString (w' ++ z) = .ok z := by
  obtain ⟨h⟩ := h
  refine ⟨_, rfl, ?_⟩
  intro z
  rw [List.append_assoc, List.singleton_append, readString, h.read, h.skip]
  simp [← utf8_eq_flatMap]

/-! ### Numbers -/

theorem dropDigits_append {ds z : Bytes} (hds : ∀ b ∈ ds, isDigit b = true)
    (hz : startsWithDigit z = false) : dropDigits (ds ++ z) = z := by
  rw [dropDigits, List.dropWhile_append_of_pos hds]
  cases z with
  | nil => rfl
  | cons b z =>
      have hb : isDigit b = false := hz
      simp [hb]

theorem IsDigits.startsWithDigit {w : Bytes} (h : IsDigits w) (z : Bytes) :
    startsWithDigit (w ++ z) = true := by
  obtain ⟨hne, hdigits⟩ := h
  cases w with
  | nil => contradiction
  | cons b w => exact hdigits b List.mem_cons_self

section

variable {e f z : Bytes}

/-- The exponent of a number does not go on with the digits before it. -/
theorem IsExponent.startsWithDigit (he : IsExponent e) (hz : Ends z) :
    startsWithDigit (e ++ z) = false := by
  cases he with
  | none => exact startsWithDigit_of_ends hz
  | digits hletter =>
      rcases hletter with rfl | rfl <;> rfl

theorem IsFraction.startsWithDigit (hf : IsFraction f) (he : IsExponent e) (hz : Ends z) :
    startsWithDigit (f ++ (e ++ z)) = false := by
  cases hf with
  | none => exact he.startsWithDigit hz
  | digits => rfl

/-- The sign and the digits of an exponent are skipped. -/
theorem skipExponent_digits {sign w : Bytes} (hsign : sign = [] ∨ sign = [0x2b] ∨ sign = [0x2d])
    (h : IsDigits w) (hz : Ends z) : skipExponent (sign ++ w ++ z) = .ok z := by
  have hdrop : dropSign (sign ++ w ++ z) = w ++ z := by
    rcases hsign with rfl | rfl | rfl
    · obtain ⟨hne, hdigits⟩ := h
      cases w with
      | nil => contradiction
      | cons b w =>
          have hb := hdigits b List.mem_cons_self
          have hplus : b ≠ 0x2b := ne_of_isDigit hb (by decide)
          have hminus : b ≠ 0x2d := ne_of_isDigit hb (by decide)
          simp [dropSign, hplus, hminus]
    · rfl
    · rfl
  rw [skipExponent, hdrop, if_pos (h.startsWithDigit z),
    dropDigits_append h.2 (startsWithDigit_of_ends hz)]

/-- What follows the digits of a fraction is an exponent or the end. -/
theorem IsExponent.skip (he : IsExponent e) (hz : Ends z) : skipTail (e ++ z) = .ok z := by
  cases he with
  | none =>
      cases z with
      | nil => rfl
      | cons b z =>
          obtain ⟨-, hpoint, hlower, hupper⟩ := hz
          simp [skipTail, hpoint, hlower, hupper]
  | digits hletter hsign h =>
      have hskip := skipExponent_digits hsign h hz
      rcases hletter with rfl | rfl <;> simpa [skipTail] using hskip

/-- Behind the digits of a fraction a number goes on as behind those of an integer, but for another
point. -/
theorem skipTail_point {s : Bytes} (hs : startsWithDigit s = true)
    (hpoint : (dropDigits s).head? ≠ some 0x2e) :
    skipTail (0x2e :: s) = skipTail (dropDigits s) := by
  simp only [skipTail, hs, if_true]
  cases hd : dropDigits s with
  | nil => rfl
  | cons b rest =>
      have hb : b ≠ 0x2e := by simpa [hd] using hpoint
      simp [hb]

theorem IsExponent.head?_ne (he : IsExponent e) (hz : Ends z) : (e ++ z).head? ≠ some 0x2e := by
  cases he with
  | none =>
      cases z with
      | nil => simp
      | cons b z => simpa using hz.2.1
  | digits hletter => rcases hletter with rfl | rfl <;> simp

theorem IsFraction.skip (hf : IsFraction f) (he : IsExponent e) (hz : Ends z) :
    skipTail (f ++ (e ++ z)) = .ok z := by
  cases hf with
  | none => exact he.skip hz
  | @digits w h =>
      have hdrop : dropDigits (w ++ (e ++ z)) = e ++ z :=
        dropDigits_append h.2 (he.startsWithDigit hz)
      have hpoint : (dropDigits (w ++ (e ++ z))).head? ≠ some 0x2e := by
        rw [hdrop]
        exact he.head?_ne hz
      rw [List.cons_append, skipTail_point (h.startsWithDigit _) hpoint, hdrop, he.skip hz]

theorem IsWhole.skip {i : Bytes} (hi : IsWhole i) (hf : IsFraction f) (he : IsExponent e)
    (hz : Ends z) : skipNumber (i ++ (f ++ (e ++ z))) = .ok z := by
  have hstop := hf.startsWithDigit he hz
  cases hi with
  | zero => simp [skipNumber, hstop, hf.skip he hz]
  | digits hd hzero hds =>
      simp [skipNumber, hzero, hd, dropDigits_append hds hstop, hf.skip he hz]

end

/-- A number is skipped. -/
theorem IsNumber.taken {w : Bytes} (h : IsNumber w) :
    ∃ b t, w = b :: t ∧ isBlank b = false ∧ b ≠ 0x5b ∧ b ≠ 0x7b ∧
      ∀ z, Ends z → skipScalar b (t ++ z) = .ok z := by
  cases h with
  | @unsigned i f e hi hf he =>
      obtain ⟨d, rest, rfl, hd⟩ := hi.head
      have hne : ∀ {c}, isDigit c = false → d ≠ c := ne_of_isDigit hd
      refine ⟨d, _, rfl, isBlank_of_isDigit hd, hne (by decide), hne (by decide), ?_⟩
      intro z hz
      have hskip := hi.skip hf he hz
      simpa [skipScalar, hne (show isDigit 0x6e = false by decide),
        hne (show isDigit 0x74 = false by decide), hne (show isDigit 0x66 = false by decide),
        hne (show isDigit 0x2d = false by decide), hd] using hskip
  | signed hi hf he =>
      refine ⟨0x2d, _, rfl, by decide, by decide, by decide, ?_⟩
      intro z hz
      have hskip := hi.skip hf he hz
      simpa [skipScalar] using hskip

/-! ### One step of skipping -/

theorem skip_value (fs : List Frame) (s : Bytes) :
    skip .value fs s =
      match skipBlank s with
      | [] => .error (.onto .endInValue [])
      | b :: rest =>
        if b = 0x5b then skip .opened (.array :: fs) rest
        else if b = 0x7b then skip .opened (.object :: fs) rest
        else
          match skipScalar b rest with
          | .error e => .error e
          | .ok rest => skip .ended fs rest := by
  rw [skip]
  split
  · rename_i hs
    rw [hs]
  · rename_i b rest hs
    simp only [hs]
    cases skipScalar b rest <;> rfl

theorem skip_ended (f : Frame) (fs : List Frame) (s : Bytes) :
    skip .ended (f :: fs) s =
      match skipBlank s with
      | [] => .error (.onto f.endCause [])
      | b :: rest =>
        if b = 0x2c then
          match skipEntryStart f rest with
          | .error e => .error e
          | .ok rest => skip .value (f :: fs) rest
        else if b = f.closing then skip .ended fs rest
        else .error (.onto f.closingCause (b :: rest)) := by
  rw [skip]
  split
  · rename_i hs
    rw [hs]
  · rename_i b rest hs
    simp only [hs]
    cases skipEntryStart f rest <;> rfl

theorem skip_opened (f : Frame) (fs : List Frame) (s : Bytes) :
    skip .opened (f :: fs) s =
      match skipBlank s with
      | [] => .error (.onto f.endCause [])
      | b :: rest =>
        if b = f.closing then skip .ended fs rest
        else
          match skipEntryStart f (b :: rest) with
          | .error e => .error e
          | .ok rest => skip .value (f :: fs) rest := by
  rw [skip]
  split
  · rename_i hs
    rw [hs]
  · rename_i b rest hs
    simp only [hs]
    cases skipEntryStart f (b :: rest) <;> rfl

theorem skipKey_eq_ok {s rest : Bytes} (h : skipKey s = .ok rest) :
    ∃ t, skipBlank s = 0x22 :: t := by
  unfold skipKey at h
  split at h
  · cases h
  rename_i b t hs
  split at h
  · rename_i hb
    exact ⟨t, by rw [hs, hb]⟩
  · cases h

theorem skipKey_congr {s s' : Bytes} (h : skipBlank s = skipBlank s') : skipKey s = skipKey s' := by
  rw [skipKey, skipKey, h]

/-! ### Elements and members -/

/-- An element is a value behind some blanks and before some others. -/
theorem Derives.element_taken {d : Datum} {w : Bytes} (h : Derives (.element d) w) :
    ∃ v b, Derives (.value d) v ∧ IsBlanks b ∧ ∀ z, skipBlank (w ++ z) = v ++ (b ++ z) := by
  cases h with
  | @element _ b v b' hb h hb' =>
      obtain ⟨c, rest, hv, hc, -⟩ := h.head
      refine ⟨v, b', h, hb', ?_⟩
      intro z
      rw [List.append_assoc, skipBlank_append hb, List.append_assoc, hv]
      exact skipBlank_of_not_isBlank hc _

/-- A list of elements does not begin with the end of an array. -/
theorem Derives.elements_head {ds : List Datum} {w : Bytes} (h : Derives (.elements ds) w)
    (z : Bytes) : ∃ c t, skipBlank (w ++ z) = c :: t ∧ isBlank c = false ∧ c ≠ 0x5d := by
  have helement : ∀ {d w}, Derives (.element d) w → ∀ z,
      ∃ c t, skipBlank (w ++ z) = c :: t ∧ isBlank c = false ∧ c ≠ 0x5d := by
    intro d w h z
    obtain ⟨v, b, hv, -, hw⟩ := h.element_taken
    obtain ⟨c, rest, rfl, hc, hclose, -⟩ := hv.head
    exact ⟨c, _, hw z, hc, hclose⟩
  cases h with
  | lastElement h => exact helement h z
  | moreElements h _ =>
      rw [List.append_assoc]
      exact helement h _

/-- A key and the colon behind it are read, and skipped up to the same place. -/
theorem key_taken {key : String} {b k b' : Bytes} (hb : IsBlanks b) (hk : IsString key k)
    (hb' : IsBlanks b') (z : Bytes) :
    ∃ t r, skipBlank (b ++ (k ++ (b' ++ 0x3a :: z))) = 0x22 :: t ∧
      readString t = .ok (key, r) ∧ skipString t = .ok r ∧ readColon r = .ok z := by
  obtain ⟨k', rfl, htaken⟩ := hk.taken
  obtain ⟨hread, hskip⟩ := htaken (b' ++ 0x3a :: z)
  have hcolon : readColon (b' ++ 0x3a :: z) = .ok z := by
    rw [readColon, skipBlank_blanks hb' (by decide)]
    rfl
  refine ⟨_, _, ?_, hread, hskip, hcolon⟩
  rw [skipBlank_append hb]
  exact skipBlank_of_not_isBlank (by decide) _

/-! ### Values -/

/-- What skipping a text of a phrase comes to, whatever brackets are open and whatever follows it.
Where the phrase may begin or end with blanks, the input is known up to blanks only. -/
def Skips : Phrase → Bytes → Prop
  | .value _, w => ∀ fs s rest, Ends rest → skipBlank s = w ++ rest →
      skip .value fs s = skip .ended fs rest
  | .element _, w => ∀ fs s rest, Ends rest → skipBlank s = skipBlank (w ++ rest) →
      ∃ tail, skipBlank tail = skipBlank rest ∧ skip .value fs s = skip .ended fs tail
  | .elements _, w => ∀ fs s rest, skipBlank s = skipBlank (w ++ 0x5d :: rest) →
      skip .value (.array :: fs) s = skip .ended fs rest
  | .member _, w => ∀ fs s rest, Ends rest → skipBlank s = skipBlank (w ++ rest) →
      ∃ r tail, skipKey s = .ok r ∧ skipBlank tail = skipBlank rest ∧
        skip .value fs r = skip .ended fs tail
  | .members _, w => ∀ fs s rest, skipBlank s = skipBlank (w ++ 0x7d :: rest) →
      ∃ r, skipKey s = .ok r ∧ skip .value (.object :: fs) r = skip .ended fs rest

/-- A value that opens no bracket is skipped. -/
theorem skips_scalar {d : Datum} {b : UInt8} {t : Bytes} (harray : b ≠ 0x5b) (hobject : b ≠ 0x7b)
    (h : ∀ z, Ends z → skipScalar b (t ++ z) = .ok z) : Skips (.value d) (b :: t) := by
  intro fs s rest hrest hs
  rw [skip_value, hs, List.cons_append]
  simp only [harray, hobject, if_false, h rest hrest]

/-- A comma or a closing bracket may follow a value. -/
theorem ends_structural : ∀ b ∈ [0x2c, 0x5d, 0x7d], ∀ z, Ends (b :: z) := by
  intro b hb z
  simp only [List.mem_cons, List.not_mem_nil, or_false] at hb
  rcases hb with rfl | rfl | rfl <;> exact ⟨by decide, by decide, by decide, by decide⟩

/-- **Every text of the grammar is skipped**, however it is nested. -/
theorem Derives.skips {p : Phrase} {w : Bytes} (h : Derives p w) : Skips p w := by
  induction h with
  | null =>
      refine skips_scalar (by decide) (by decide) fun z _ => ?_
      simp [skipScalar, readWord]
  | truth =>
      refine skips_scalar (by decide) (by decide) fun z _ => ?_
      simp [skipScalar, readWord]
  | falsity =>
      refine skips_scalar (by decide) (by decide) fun z _ => ?_
      simp [skipScalar, readWord]
  | number h =>
      obtain ⟨b, t, rfl, -, harray, hobject, hskip⟩ := h.taken
      exact skips_scalar harray hobject hskip
  | string h =>
      obtain ⟨w', rfl, htaken⟩ := h.taken
      refine skips_scalar (by decide) (by decide) fun z _ => ?_
      have hdigit : isDigit 0x22 = false := by decide
      simp [skipScalar, hdigit, (htaken z).2]
  | @emptyArray b hb =>
      intro fs s rest _ hs
      have hclose : skipBlank (b ++ 0x5d :: rest) = 0x5d :: rest :=
        skipBlank_blanks hb (by decide) rest
      rw [skip_value, hs]
      simp [skip_opened, hclose, Frame.closing]
  | @array ds w h ih =>
      intro fs s rest _ hs
      obtain ⟨c, t, hw, hc, hclose⟩ := h.elements_head (0x5d :: rest)
      have hskip := ih fs (c :: t) rest (by rw [hw, skipBlank_of_not_isBlank hc])
      rw [skip_value, hs]
      simpa [skip_opened, hw, Frame.closing, hclose, skipEntryStart] using hskip
  | @emptyObject b hb =>
      intro fs s rest _ hs
      have hclose : skipBlank (b ++ 0x7d :: rest) = 0x7d :: rest :=
        skipBlank_blanks hb (by decide) rest
      rw [skip_value, hs]
      simp [skip_opened, hclose, Frame.closing]
  | @object ms w h ih =>
      intro fs s rest _ hs
      obtain ⟨r, hkey, hskip⟩ := ih fs (w ++ 0x7d :: rest) rest rfl
      obtain ⟨t, ht⟩ := skipKey_eq_ok hkey
      have hkey' : skipKey (0x22 :: t) = .ok r := by
        rw [← hkey]
        exact skipKey_congr (by rw [ht]; rfl)
      rw [skip_value, hs]
      simpa [skip_opened, ht, Frame.closing, skipEntryStart, hkey'] using hskip
  | @element d b w b' hb h hb' ih =>
      intro fs s rest hrest hs
      refine ⟨b' ++ rest, skipBlank_append hb' rest, ih fs s _ (ends_blanks hb' hrest) ?_⟩
      obtain ⟨c, t, rfl, hc, -⟩ := h.head
      rw [hs, List.append_assoc, skipBlank_append hb, List.append_assoc]
      exact skipBlank_of_not_isBlank hc _
  | lastElement h ih =>
      intro fs s rest hs
      obtain ⟨tail, htail, hskip⟩ := ih (.array :: fs) s _ (ends_structural _ (by decide) _) hs
      rw [hskip, skip_ended, htail]
      simp [Frame.closing]
  | @moreElements d ds w w' h h' ih ih' =>
      intro fs s rest hs
      rw [List.append_assoc] at hs
      obtain ⟨tail, htail, hskip⟩ := ih (.array :: fs) s _ (ends_structural _ (by decide) _) hs
      have hrest := ih' fs (w' ++ 0x5d :: rest) rest rfl
      rw [hskip, skip_ended, htail]
      simpa [skipEntryStart] using hrest
  | @member key d b k b' w hb hk hb' h ih =>
      intro fs s rest hrest hs
      obtain ⟨t, r, hkey, -, hstring, hcolon⟩ := key_taken hb hk hb' (w ++ rest)
      obtain ⟨tail, htail, hskip⟩ := ih fs (w ++ rest) rest hrest rfl
      refine ⟨w ++ rest, tail, ?_, htail, hskip⟩
      have hs' : skipBlank s = 0x22 :: t := by
        rw [hs, ← hkey]
        simp
      simp [skipKey, hs', hstring, hcolon]
  | lastMember h ih =>
      intro fs s rest hs
      obtain ⟨r, tail, hkey, htail, hskip⟩ :=
        ih (.object :: fs) s _ (ends_structural _ (by decide) _) hs
      refine ⟨r, hkey, ?_⟩
      rw [hskip, skip_ended, htail]
      simp [Frame.closing]
  | @moreMembers m ms w w' h h' ih ih' =>
      intro fs s rest hs
      rw [List.append_assoc] at hs
      obtain ⟨r, tail, hkey, htail, hskip⟩ :=
        ih (.object :: fs) s _ (ends_structural _ (by decide) _) hs
      obtain ⟨r', hkey', hrest⟩ := ih' fs (w' ++ 0x7d :: rest) rest rfl
      refine ⟨r, hkey, ?_⟩
      rw [hskip, skip_ended, htail]
      simpa [skipEntryStart, hkey'] using hrest

/-- An element is skipped up to the blanks behind its value. -/
theorem Derives.skipValue {d : Datum} {v s rest : Bytes} (h : Derives (.value d) v)
    (hrest : Ends rest) (hs : skipBlank s = v ++ rest) : skipValue s = .ok rest := by
  rw [Json.skipValue, h.skips [] s rest hrest hs, skip]

end Roster.Json
