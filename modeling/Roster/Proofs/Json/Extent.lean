/-
**How far a token reaches.**

A reader that succeeds has taken a text from the front of its input, and what it makes of that text
does not depend on what comes behind it.  For strings and words this holds without any condition,
since their last byte says that they are over.  A number is over where something begins that cannot
go on with it, so it is the same number in front of every input that ends a value
(`Roster.Json.Ends`).  The digits of a number are taken in stretches, and what stops a stretch is
the first byte behind it or a limit on the number read so far; the lemmas on stretches therefore
speak of inputs that begin with the same byte.

Main definitions:

* `Roster.Json.Extent` — a reading has taken a text, and takes it in front of other inputs too.

Main results:

* `Roster.Json.readString_extent` — **a string is over with its closing quote**;
* `Roster.Json.takeDigits_extent` — where a stretch of digits stops;
* `Roster.Json.readNumber_extent` — **a number is over where a value may end**.
-/

import Roster.Proofs.Json.Numbers

set_option relaxedAutoImplicit false
set_option autoImplicit false

namespace Roster.Json

/-! ### Extents -/

section

variable {α : Type}

/-- A reading that has given `a` and left `rest` has taken a text, and it takes this text for the
same value in front of every input that `may` follow. -/
def Extent (may : Bytes → Prop) (read : Bytes → Read α) (s : Bytes) (a : α) (rest : Bytes) : Prop :=
  ∃ text, s = text ++ rest ∧ ∀ z, may z → read (text ++ z) = .ok (a, z)

/-- Every input may follow. -/
def Whatever (_ : Bytes) : Prop := True

/-- A reader that takes a byte and goes on as another one takes the byte and what the other
takes. -/
theorem Extent.cons {may : Bytes → Prop} {read read' : Bytes → Read α} {b : UInt8} {s rest : Bytes}
    {a : α} (h : Extent may read s a rest) (hread : ∀ t, read' (b :: t) = read t) :
    Extent may read' (b :: s) a rest := by
  obtain ⟨text, rfl, htext⟩ := h
  refine ⟨b :: text, rfl, ?_⟩
  intro z hz
  rw [List.cons_append, hread, htext z hz]

/-- A reading that cannot do without an input has taken its first byte. -/
theorem Extent.of_cons {may : Bytes → Prop} {read : Bytes → Read α} {b : UInt8} {s rest : Bytes}
    {a : α} (h : Extent may read (b :: s) a rest) (hmay : may []) (hnil : ∀ r, read [] ≠ .ok r) :
    Extent may (fun t => read (b :: t)) s a rest := by
  obtain ⟨text, hs, htext⟩ := h
  cases text with
  | nil => exact absurd (htext [] hmay) (hnil _)
  | cons c text =>
      obtain ⟨rfl, rfl⟩ := List.cons.inj hs
      exact ⟨text, rfl, htext⟩

end

/-! ### Strings -/

theorem readHex_extent {s rest : Bytes} {n : Nat} (h : readHex s = .ok (n, rest)) :
    Extent Whatever readHex s n rest := by
  unfold readHex at h
  split at h
  · rename_i a b c d tail
    split at h
    · rename_i ha hb hc hd
      obtain ⟨rfl, rfl⟩ := Prod.mk.inj (Except.ok.inj h)
      exact ⟨[a, b, c, d], rfl, fun z _ => by simp [readHex, ha, hb, hc, hd]⟩
    · cases h
  · cases h

theorem readSecondHalf_extent {high : Nat} {s rest bytes : Bytes}
    (h : readSecondHalf high s = .ok (bytes, rest)) :
    Extent Whatever (readSecondHalf high) s bytes rest := by
  unfold readSecondHalf at h
  split at h
  · cases h
  split at h
  · rename_i hslash
    split at h
    · cases h
    split at h
    · rename_i hu
      split at h
      · cases h
      rename_i low tail hhex
      split at h
      · rename_i hlow
        obtain ⟨rfl, rfl⟩ := Prod.mk.inj (Except.ok.inj h)
        obtain ⟨text, rfl, htext⟩ := readHex_extent hhex
        refine ⟨0x5c :: 0x75 :: text, by rw [hslash, hu]; rfl, ?_⟩
        intro z hz
        simp [readSecondHalf, htext z hz, hlow]
      · cases h
    · cases h
  · cases h

/-- What the digits of an escape by number stand for. -/
theorem readEscape_of_hex {t rest : Bytes} {n : Nat} (h : readHex t = .ok (n, rest)) :
    readEscape (0x75 :: t) =
      if 0xdc00 ≤ n ∧ n ≤ 0xdfff then .error (.before .loneSurrogate rest)
      else if 0xd800 ≤ n ∧ n ≤ 0xdbff then readSecondHalf n rest
      else .ok (codePoint n, rest) := by
  simp only [readEscape, h]
  rfl

/-- An escape by number is over with its last digit. -/
theorem readEscape_extent_of_number {s rest bytes : Bytes}
    (h : readEscape (0x75 :: s) = .ok (bytes, rest)) :
    Extent Whatever readEscape (0x75 :: s) bytes rest := by
  cases hhex : readHex s with
  | error e => simp [readEscape, hhex] at h
  | ok x =>
      obtain ⟨n, tail⟩ := x
      rw [readEscape_of_hex hhex] at h
      obtain ⟨text, rfl, htext⟩ := readHex_extent hhex
      split at h
      · cases h
      rename_i hlow
      split at h
      · rename_i hhigh
        obtain ⟨text', rfl, htext'⟩ := readSecondHalf_extent h
        refine ⟨0x75 :: (text ++ text'), by simp, ?_⟩
        intro z hz
        rw [List.cons_append, List.append_assoc, readEscape_of_hex (htext _ trivial)]
        simp [hlow, hhigh, htext' z hz]
      · rename_i hhigh
        obtain ⟨rfl, rfl⟩ := Prod.mk.inj (Except.ok.inj h)
        refine ⟨0x75 :: text, rfl, ?_⟩
        intro z hz
        rw [List.cons_append, readEscape_of_hex (htext z hz)]
        simp [hlow, hhigh]

theorem readEscape_extent {s rest bytes : Bytes} (h : readEscape s = .ok (bytes, rest)) :
    Extent Whatever readEscape s bytes rest := by
  cases s with
  | nil => cases h
  | cons b s =>
      by_cases hu : b = 0x75
      · subst hu
        exact readEscape_extent_of_number h
      · -- an escape by letter is over with its letter
        simp only [readEscape, hu, if_false] at h
        repeat' split at h
        all_goals
          first
          | (cases h; done)
          | (obtain ⟨rfl, rfl⟩ := Prod.mk.inj (Except.ok.inj h)
             exact ⟨[b], rfl, fun z _ => by simp [readEscape, *]⟩)

/-- An escape goes on with what follows it. -/
theorem readContent_of_escape {done s rest bytes : Bytes}
    (h : readEscape s = .ok (bytes, rest)) :
    readContent done (0x5c :: s) = readContent (bytes.reverse ++ done) rest := by
  rw [readContent, if_neg (by decide), if_pos rfl]
  split
  · rename_i hr
    cases h.symm.trans hr
  · rename_i hr
    cases h.symm.trans hr
    rfl

theorem readContent_extent {done s rest bytes : Bytes}
    (h : readContent done s = .ok (bytes, rest)) :
    Extent Whatever (readContent done) s bytes rest := by
  fun_induction readContent done s with
  | case1 => cases h
  | case2 done tail =>
      obtain ⟨rfl, rfl⟩ := Prod.mk.inj (Except.ok.inj h)
      exact ⟨[0x22], rfl, fun z _ => by simp [readContent]⟩
  | case3 => cases h
  | case4 done tail escape tail' he hq ih =>
      obtain ⟨text, rfl, htext⟩ := readEscape_extent he
      obtain ⟨text', rfl, htext'⟩ := ih h
      refine ⟨0x5c :: (text ++ text'), by simp, ?_⟩
      intro z hz
      rw [List.cons_append, List.append_assoc, readContent_of_escape (htext _ trivial)]
      exact htext' z hz
  | case5 => cases h
  | case6 done b tail hq hs hc ih =>
      exact (ih h).cons fun t => by rw [readContent, if_neg hq, if_neg hs, if_neg hc]

theorem readString_extent {s rest : Bytes} {t : String} (h : readString s = .ok (t, rest)) :
    Extent Whatever readString s t rest := by
  unfold readString at h
  split at h
  · cases h
  rename_i bytes tail hc
  split at h
  · rename_i t' ht
    obtain ⟨rfl, rfl⟩ := Prod.mk.inj (Except.ok.inj h)
    obtain ⟨text, rfl, htext⟩ := readContent_extent hc
    refine ⟨text, rfl, ?_⟩
    intro z hz
    simp [readString, htext z hz, ht]
  · cases h

/-! ### Digits -/

/-- Behind a text that is not empty, what follows does not matter for the first byte. -/
theorem head?_append_eq {text : Bytes} (h : text ≠ []) (y z : Bytes) :
    (text ++ y).head? = (text ++ z).head? := by
  cases text with
  | nil => contradiction
  | cons b text => rfl

theorem startsWithDigit_eq_of_head? {s t : Bytes} (h : s.head? = t.head?) :
    startsWithDigit s = startsWithDigit t := by
  cases s <;> cases t <;> simp_all [startsWithDigit]

theorem startsWithDigit_append {text rest z : Bytes}
    (h : startsWithDigit (text ++ rest) = false) (hz : Ends z) :
    startsWithDigit (text ++ z) = false := by
  cases text with
  | nil => exact startsWithDigit_of_ends hz
  | cons b text => exact h

/-- Digits are taken up to the same place in front of every input that begins with the same byte,
and in front of every input that does not begin with a digit. -/
theorem takeDigits_extent (limit n k : Nat) (s : Bytes) :
    ∃ text, s = text ++ (takeDigits limit n k s).rest ∧
      ∀ z, z.head? = (takeDigits limit n k s).rest.head? ∨ startsWithDigit z = false →
        takeDigits limit n k (text ++ z) = { takeDigits limit n k s with rest := z } := by
  induction s generalizing n k with
  | nil =>
      refine ⟨[], rfl, ?_⟩
      intro z hz
      cases z with
      | nil => rfl
      | cons c z =>
          have hc : isDigit c = false := by simpa [takeDigits, startsWithDigit] using hz
          simp [takeDigits, hc]
  | cons b s ih =>
      by_cases hb : (isDigit b && n * 10 + digitValue b ≤ limit) = true
      · obtain ⟨text, hs, htext⟩ := ih (n * 10 + digitValue b) (k + 1)
        have htake : ∀ t, takeDigits limit n k (b :: t) =
            takeDigits limit (n * 10 + digitValue b) (k + 1) t := by
          intro t
          rw [takeDigits, if_pos hb]
        refine ⟨b :: text, ?_, ?_⟩
        · rw [htake, List.cons_append, ← hs]
        · intro z hz
          rw [htake] at hz ⊢
          rw [List.cons_append, htake]
          exact htext z hz
      · have htake : ∀ t, takeDigits limit n k (b :: t) = ⟨n, k, b :: t⟩ := by
          intro t
          rw [takeDigits, if_neg hb]
        refine ⟨[], by rw [htake]; rfl, ?_⟩
        intro z hz
        rw [htake] at hz ⊢
        cases z with
        | nil => rfl
        | cons c z =>
            rcases hz with hc | hc
            · obtain rfl : c = b := by simpa using hc
              exact htake z
            · have hc : isDigit c = false := hc
              simp [takeDigits, hc]

/-- The digits at the front of an input are the same in front of every input that does not begin
with a digit. -/
theorem dropDigits_extent (s : Bytes) :
    ∃ text, s = text ++ dropDigits s ∧ (startsWithDigit s = true → text ≠ []) ∧
      ∀ z, startsWithDigit z = false →
        dropDigits (text ++ z) = z ∧ countDigits (text ++ z) = countDigits s := by
  have hall : ∀ b ∈ s.takeWhile isDigit, isDigit b = true :=
    List.all_eq_true.1 List.all_takeWhile
  refine ⟨s.takeWhile isDigit, (List.takeWhile_append_dropWhile).symm, ?_, ?_⟩
  · intro hs
    cases s with
    | nil => cases hs
    | cons b s =>
        have hb : isDigit b = true := hs
        simp [hb]
  · intro z hz
    have hstop : z.takeWhile isDigit = [] ∧ z.dropWhile isDigit = z := by
      cases z with
      | nil => exact ⟨rfl, rfl⟩
      | cons c z =>
          have hc : isDigit c = false := hz
          simp [hc]
    constructor
    · rw [dropDigits, List.dropWhile_append_of_pos hall, hstop.2]
    · rw [countDigits, List.takeWhile_append_of_pos hall, hstop.1, List.append_nil, countDigits]

theorem startsWithDigit_dropDigits (s : Bytes) : startsWithDigit (dropDigits s) = false := by
  cases hs : dropDigits s with
  | nil => rfl
  | cons b rest =>
      have hb := List.head?_dropWhile_not isDigit s
      rw [show s.dropWhile isDigit = b :: rest from hs] at hb
      exact hb

/-! ### Numbers -/

theorem assemble_eq_ok {positive : Bool} {n : Nat} {e : Int} {s rest : Bytes} {v : Number}
    (h : assemble positive n e s = .ok (v, rest)) :
    s = rest ∧ ∀ z, assemble positive n e z = .ok (v, z) := by
  unfold assemble at h ⊢
  split at h
  · cases h
  · obtain ⟨rfl, rfl⟩ := Prod.mk.inj (Except.ok.inj h)
    exact ⟨rfl, fun z => rfl⟩

section

variable {positive : Bool} {n : Nat} {e : Int} {s rest : Bytes} {v : Number}

theorem readExponentDigits_extent {up : Bool}
    (h : readExponentDigits positive n e up s = .ok (v, rest)) :
    Extent Ends (readExponentDigits positive n e up) s v rest := by
  cases s with
  | nil => cases h
  | cons b s =>
      obtain ⟨text, hs, htext⟩ := takeDigits_extent maxExponent (digitValue b) 0 s
      simp only [readExponentDigits] at h
      split at h
      · rename_i hb
        split at h
        · -- the exponent is too long to be read, and all its digits are dropped
          rename_i hlong
          split at h
          · cases h
          rename_i hfits
          obtain ⟨rfl, rfl⟩ := Prod.mk.inj (Except.ok.inj h)
          obtain ⟨digits, hdigits, hne, hdrop⟩ := dropDigits_extent
            (takeDigits maxExponent (digitValue b) 0 s).rest
          refine ⟨b :: (text ++ digits), by simp [← hdigits, ← hs], ?_⟩
          intro z hz
          have hhead : (digits ++ z).head? =
              (takeDigits maxExponent (digitValue b) 0 s).rest.head? := by
            conv => rhs; rw [hdigits]
            exact head?_append_eq (hne hlong) _ _
          have hlong' : startsWithDigit (digits ++ z) = true := by
            rw [startsWithDigit_eq_of_head? hhead, hlong]
          have htake := htext (digits ++ z) (.inl hhead)
          simp only [List.cons_append, List.append_assoc, readExponentDigits, hb, if_true, htake,
            hlong', hfits, if_false, (hdrop z (startsWithDigit_of_ends hz)).1]
        · rename_i hshort
          obtain ⟨hrest, hassemble⟩ := assemble_eq_ok h
          refine ⟨b :: text, by rw [hs, hrest]; rfl, ?_⟩
          intro z hz
          have hz' := startsWithDigit_of_ends hz
          simp only [List.cons_append, readExponentDigits, hb, if_true, htext z (.inr hz'), hz',
            Bool.false_eq_true, if_false, hassemble]
      · cases h

theorem readExponent_extent (h : readExponent positive n e s = .ok (v, rest)) :
    Extent Ends (readExponent positive n e) s v rest := by
  cases s with
  | nil => cases h
  | cons b s =>
      simp only [readExponent] at h
      split at h
      · rename_i hplus
        exact (readExponentDigits_extent h).cons fun t => by rw [readExponent, if_pos hplus]
      rename_i hplus
      split at h
      · rename_i hminus
        exact (readExponentDigits_extent h).cons fun t => by
          rw [readExponent, if_neg hplus, if_pos hminus]
      · rename_i hminus
        -- without a sign the byte is the first digit, which the digits have taken
        have hdigits := (readExponentDigits_extent h).of_cons trivial (fun r hr => by cases hr)
        exact hdigits.cons fun t => by rw [readExponent, if_neg hplus, if_neg hminus]

/-- A number goes on with an exponent exactly if a letter for one follows. -/
theorem readTail_of_ends {z : Bytes} (h : Ends z) :
    readTail positive n e z = assemble positive n e z := by
  cases z with
  | nil => rfl
  | cons b z =>
      obtain ⟨-, -, he, hE⟩ := h
      simp [readTail, he, hE]

theorem readTail_extent (h : readTail positive n e s = .ok (v, rest)) :
    Extent Ends (readTail positive n e) s v rest := by
  have hnone : assemble positive n e s = .ok (v, rest) → Extent Ends (readTail positive n e) s v
      rest := by
    intro ha
    obtain ⟨rfl, hassemble⟩ := assemble_eq_ok ha
    refine ⟨[], rfl, ?_⟩
    intro z hz
    rw [List.nil_append, readTail_of_ends hz, hassemble]
  cases s with
  | nil => exact hnone h
  | cons b s =>
      simp only [readTail] at h
      split at h
      · rename_i hletter
        exact (readExponent_extent h).cons fun t => by rw [readTail, if_pos hletter]
      · exact hnone h

theorem readFraction_extent (h : readFraction positive n e s = .ok (v, rest)) :
    Extent Ends (readFraction positive n e) s v rest := by
  obtain ⟨text, hs, htext⟩ := takeDigits_extent maxSignificand n 0 s
  simp only [readFraction] at h
  split at h
  · -- the significand has no room for all digits, and the others are dropped
    rename_i hlong
    obtain ⟨digits, hdigits, hne, hdrop⟩ := dropDigits_extent
      (takeDigits maxSignificand n 0 s).rest
    obtain ⟨tail, htail, hread⟩ := readTail_extent h
    refine ⟨text ++ (digits ++ tail), ?_, ?_⟩
    · rw [List.append_assoc, List.append_assoc, ← htail, ← hdigits, ← hs]
    · intro z hz
      have hdigit := startsWithDigit_dropDigits (takeDigits maxSignificand n 0 s).rest
      rw [htail] at hdigit
      have hstop := startsWithDigit_append hdigit hz
      have hhead : (digits ++ (tail ++ z)).head? =
          (takeDigits maxSignificand n 0 s).rest.head? := by
        conv => rhs; rw [hdigits]
        exact head?_append_eq (hne hlong) _ _
      have hlong' : startsWithDigit (digits ++ (tail ++ z)) = true := by
        rw [startsWithDigit_eq_of_head? hhead, hlong]
      have htake := htext (digits ++ (tail ++ z)) (.inl hhead)
      simp only [List.append_assoc, readFraction, htake, hlong', if_true, (hdrop _ hstop).1,
        hread z hz]
  · rename_i hshort
    split at h
    · cases h
    rename_i hcount
    obtain ⟨tail, htail, hread⟩ := readTail_extent h
    refine ⟨text ++ tail, ?_, ?_⟩
    · rw [List.append_assoc, ← htail, ← hs]
    · intro z hz
      have hdigit : startsWithDigit (tail ++ rest) = false := by
        rw [← htail]
        simpa using hshort
      have hstop := startsWithDigit_append hdigit hz
      simp only [List.append_assoc, readFraction, htext _ (.inr hstop), hstop, Bool.false_eq_true,
        if_false, hcount, hread z hz]

theorem readIntegerTail_extent (h : readIntegerTail positive n s = .ok (v, rest)) :
    Extent Ends (readIntegerTail positive n) s v rest := by
  have hnone : (Except.ok (fitting positive n, s) : Read Number) = .ok (v, rest) →
      Extent Ends (readIntegerTail positive n) s v rest := by
    intro heq
    obtain ⟨rfl, rfl⟩ := Prod.mk.inj (Except.ok.inj heq)
    exact ⟨[], rfl, fun z hz => readIntegerTail_of_ends hz⟩
  cases s with
  | nil => exact hnone h
  | cons b s =>
      simp only [readIntegerTail] at h
      split at h
      · rename_i hpoint
        exact (readFraction_extent h).cons fun t => by rw [readIntegerTail, if_pos hpoint]
      rename_i hpoint
      split at h
      · rename_i hletter
        exact (readExponent_extent h).cons fun t => by
          rw [readIntegerTail, if_neg hpoint, if_pos hletter]
      · exact hnone h

/-- What follows the digits of a long integer. -/
theorem readLong_of_dropDigits {t : Bytes} (h : dropDigits s = t) (hpoint : t.head? ≠ some 0x2e) :
    readLong positive n s = readTail positive n (countDigits s) t := by
  rw [readLong, h]
  cases t with
  | nil => rfl
  | cons b t =>
      have hb : b ≠ 0x2e := by simpa using hpoint
      simp [hb]

theorem readLong_of_point {t : Bytes} (h : dropDigits s = 0x2e :: t) :
    readLong positive n s = readFraction positive n (countDigits s) t := by
  rw [readLong, h]
  simp

/-- A long integer has at least one digit that is dropped. -/
theorem readLong_extent (hs : startsWithDigit s = true)
    (h : readLong positive n s = .ok (v, rest)) :
    ∃ text, text ≠ [] ∧ s = text ++ rest ∧
      ∀ z, Ends z → readLong positive n (text ++ z) = .ok (v, z) := by
  obtain ⟨digits, hdigits, hne, hdrop⟩ := dropDigits_extent s
  by_cases hpoint : (dropDigits s).head? = some 0x2e
  · obtain ⟨t, ht⟩ : ∃ t, dropDigits s = 0x2e :: t := by
      cases hd : dropDigits s with
      | nil => rw [hd] at hpoint; cases hpoint
      | cons b t =>
          rw [hd] at hpoint
          exact ⟨t, by rw [Option.some.inj hpoint]⟩
    rw [readLong_of_point ht] at h
    obtain ⟨text, rfl, htext⟩ := readFraction_extent h
    refine ⟨digits ++ 0x2e :: text, by simp, ?_, ?_⟩
    · rw [List.append_assoc, List.cons_append, ← ht]
      exact hdigits
    · intro z hz
      obtain ⟨hstop, hcount⟩ := hdrop (0x2e :: (text ++ z)) rfl
      rw [List.append_assoc, List.cons_append, readLong_of_point hstop, hcount]
      exact htext z hz
  · rw [readLong_of_dropDigits rfl hpoint] at h
    obtain ⟨text, htext, hread⟩ := readTail_extent h
    refine ⟨digits ++ text, by simp [hne hs], ?_, ?_⟩
    · rw [List.append_assoc, ← htext]
      exact hdigits
    · intro z hz
      have hdigit := startsWithDigit_dropDigits s
      rw [htext] at hdigit hpoint
      obtain ⟨hstop, hcount⟩ := hdrop (text ++ z) (startsWithDigit_append hdigit hz)
      have hpoint' : (text ++ z).head? ≠ some 0x2e := by
        cases text with
        | nil =>
            intro hz'
            cases z with
            | nil => cases hz'
            | cons b z => exact hz.2.1 (Option.some.inj hz')
        | cons b text => exact hpoint
      rw [List.append_assoc, readLong_of_dropDigits hstop hpoint', hcount]
      exact hread z hz

theorem readNumber_extent (h : readNumber positive s = .ok (v, rest)) :
    Extent Ends (readNumber positive) s v rest := by
  cases s with
  | nil => cases h
  | cons b s =>
      simp only [readNumber] at h
      split at h
      · rename_i hzero
        split at h
        · cases h
        rename_i hdigit
        obtain ⟨text, rfl, htext⟩ := readIntegerTail_extent h
        refine ⟨b :: text, rfl, ?_⟩
        intro z hz
        have hdigit' : startsWithDigit (text ++ z) = false :=
          startsWithDigit_append (by simpa using hdigit) hz
        simp only [List.cons_append, readNumber, hzero, if_true, hdigit', Bool.false_eq_true,
          if_false, htext z hz]
      rename_i hzero
      split at h
      · rename_i hb
        obtain ⟨digits, hdigits, htake⟩ := takeDigits_extent maxSignificand (digitValue b) 0 s
        split at h
        · rename_i hlong
          obtain ⟨text, hne, htext, hread⟩ := readLong_extent hlong h
          refine ⟨b :: (digits ++ text), by simp [← htext, ← hdigits], ?_⟩
          intro z hz
          have hhead : (text ++ z).head? =
              (takeDigits maxSignificand (digitValue b) 0 s).rest.head? := by
            rw [htext]
            exact head?_append_eq hne _ _
          have hlong' : startsWithDigit (text ++ z) = true := by
            rw [startsWithDigit_eq_of_head? hhead, hlong]
          simp only [List.cons_append, List.append_assoc, readNumber, hzero, if_false, hb, if_true,
            htake _ (.inl hhead), hlong', hread z hz]
        · rename_i hshort
          obtain ⟨text, htext, hread⟩ := readIntegerTail_extent h
          refine ⟨b :: (digits ++ text), by simp [← htext, ← hdigits], ?_⟩
          intro z hz
          have hdigit : startsWithDigit (text ++ rest) = false := by
            rw [← htext]
            simpa using hshort
          have hshort' := startsWithDigit_append hdigit hz
          simp only [List.cons_append, List.append_assoc, readNumber, hzero, if_false, hb, if_true,
            htake _ (.inr hshort'), hshort', Bool.false_eq_true, hread z hz]
      · cases h

end

end Roster.Json
