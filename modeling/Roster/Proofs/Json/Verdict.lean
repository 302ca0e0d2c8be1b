/-
**What is read depends on the datum alone.**

The grammar leaves open how a datum is written: blanks may stand between tokens, and a character may
be spelled in several ways.  For the reader of values that makes no difference.  Either it reads
every text of a datum, and always for the same value, or it refuses every one of them, because a
number is out of range or because too many brackets are open.  So two texts of one datum cannot be
told apart by what is read of them.

A number has one text only, but many inputs have it at their front, and its digits are taken in
stretches; each of its readers comes to a verdict on the bytes of its part of the number, whatever
follows the number.

Main definitions:

* `Roster.Json.Decided` — a reader makes the same of a text in front of everything that may follow;
* `Roster.Json.Judged` — a reader makes the same of all inputs that are described in some way.

Main results:

* `Roster.Json.decided_number` — **numbers are decided**;
* `Roster.Json.judged_entries` — a loop makes the same of all lists of entries that are judged;
* `Roster.Json.judged_value` — **values are judged by their datum**;
* `Roster.Json.parse_judged` — and so are whole texts.
-/

import Roster.Proofs.Json.Found

set_option relaxedAutoImplicit false
set_option autoImplicit false

namespace Roster.Json

/-! ### Verdicts on a text -/

section

variable {α : Type}

/-- A reader makes the same of a text in front of everything that may follow a value: it takes the
text, always for the same value, or refuses it. -/
def Decided (read : Bytes → Read α) (text : Bytes) : Prop :=
  (∃ a, ∀ z, Ends z → read (text ++ z) = .ok (a, z)) ∨
    ∀ z, Ends z → ∃ e, read (text ++ z) = .error e

theorem Decided.congr {read read' : Bytes → Read α} {text text' : Bytes} (h : Decided read' text')
    (heq : ∀ z, Ends z → read (text ++ z) = read' (text' ++ z)) : Decided read text := by
  rcases h with ⟨a, ha⟩ | herror
  · exact .inl ⟨a, fun z hz => (heq z hz).trans (ha z hz)⟩
  · exact .inr fun z hz => heq z hz ▸ herror z hz

theorem Decided.map {β : Type} {read : Bytes → Read α} {read' : Bytes → Read β} {text text' : Bytes}
    (h : Decided read text) (g : α → β)
    (heq : ∀ z, read' (text' ++ z) = (read (text ++ z)).map (Prod.map g id)) :
    Decided read' text' := by
  rcases h with ⟨a, ha⟩ | hrefused
  · refine .inl ⟨g a, fun z hz => ?_⟩
    rw [heq, ha z hz]
    rfl
  · refine .inr fun z hz => ?_
    obtain ⟨e, he⟩ := hrefused z hz
    exact ⟨e, by rw [heq, he]; rfl⟩

end

/-! ### Numbers -/

/-- Of some digits as many are taken as the limit allows, whatever follows the digits. -/
theorem takeDigits_digits (limit n k : Nat) {ds : Bytes} (hds : ∀ b ∈ ds, isDigit b = true) :
    ∃ value count left, (∀ b ∈ left, isDigit b = true) ∧ ∀ z, startsWithDigit z = false →
      takeDigits limit n k (ds ++ z) = ⟨value, count, left ++ z⟩ := by
  induction ds generalizing n k with
  | nil =>
      refine ⟨n, k, [], by simp, fun z hz => ?_⟩
      cases z with
      | nil => rfl
      | cons b z =>
          have hb : isDigit b = false := hz
          simp [takeDigits, hb]
  | cons d ds ih =>
      by_cases hlimit : n * 10 + digitValue d ≤ limit
      · obtain ⟨value, count, left, hleft, htake⟩ := ih (n * 10 + digitValue d) (k + 1)
          fun b hb => hds b (List.mem_cons_of_mem d hb)
        refine ⟨value, count, left, hleft, fun z hz => ?_⟩
        simp [takeDigits, hds d List.mem_cons_self, hlimit, htake z hz]
      · exact ⟨n, k, d :: ds, hds, fun z _ => by simp [takeDigits, hlimit]⟩

theorem countDigits_append {ds z : Bytes} (hds : ∀ b ∈ ds, isDigit b = true)
    (hz : startsWithDigit z = false) : countDigits (ds ++ z) = ds.length := by
  rw [countDigits, List.takeWhile_append_of_pos hds]
  cases z with
  | nil => simp
  | cons b z =>
      have hb : isDigit b = false := hz
      simp [hb]

section

variable (positive : Bool) (n : Nat) (k : Int) {f e : Bytes}

theorem decided_assemble : Decided (assemble positive n k) [] := by
  cases hscaled : scaled? n k with
  | none =>
      refine .inr fun z _ => ⟨.seen .numberOutOfRange z, ?_⟩
      simp only [List.nil_append, assemble, hscaled]
  | some x =>
      refine .inl ⟨.double (if positive then x else x.negate), fun z _ => ?_⟩
      simp only [List.nil_append, assemble, hscaled]

theorem decided_exponentDigits (up : Bool) {w : Bytes} (h : IsDigits w) :
    Decided (readExponentDigits positive n k up) w := by
  obtain ⟨hne, hw⟩ := h
  cases w with
  | nil => contradiction
  | cons b ds =>
      have hb := hw b List.mem_cons_self
      obtain ⟨value, count, left, hleft, htake⟩ := takeDigits_digits maxExponent (digitValue b) 0
        fun d hd => hw d (List.mem_cons_of_mem b hd)
      cases left with
      | nil =>
          refine (decided_assemble positive n (if up then k + value else k - value)).congr ?_
          intro z hz
          have hz := startsWithDigit_of_ends hz
          simp [readExponentDigits, hb, htake z hz, hz]
      | cons c left =>
          -- the exponent is too long to be read
          have hc : ∀ z, startsWithDigit (c :: left ++ z) = true := fun _ =>
            hleft c List.mem_cons_self
          by_cases hbig : n ≠ 0 ∧ up = true
          · refine .inr fun z hz => ⟨.before .numberOutOfRange (left ++ z), ?_⟩
            simp only [List.cons_append, readExponentDigits, hb, if_true,
              htake z (startsWithDigit_of_ends hz)]
            rw [← List.cons_append, if_pos (hc z), if_pos hbig]
            rfl
          · refine .inl ⟨.double (if positive then Double.zero else Double.zero.negate),
              fun z hz => ?_⟩
            have hz := startsWithDigit_of_ends hz
            simp only [List.cons_append, readExponentDigits, hb, if_true, htake z hz]
            rw [← List.cons_append, if_pos (hc z), if_neg hbig, dropDigits_append hleft hz]

/-- What follows the letter of an exponent. -/
theorem decided_exponent {sign w : Bytes} (hsign : sign = [] ∨ sign = [0x2b] ∨ sign = [0x2d])
    (h : IsDigits w) : Decided (readExponent positive n k) (sign ++ w) := by
  rcases hsign with rfl | rfl | rfl
  · refine (decided_exponentDigits positive n k true h).congr fun z _ => ?_
    obtain ⟨hne, hw⟩ := h
    cases w with
    | nil => contradiction
    | cons b w =>
        have hb := hw b List.mem_cons_self
        have hplus : b ≠ 0x2b := ne_of_isDigit hb (by decide)
        have hminus : b ≠ 0x2d := ne_of_isDigit hb (by decide)
        simp [readExponent, hplus, hminus]
  · exact (decided_exponentDigits positive n k true h).congr fun z _ => by simp [readExponent]
  · exact (decided_exponentDigits positive n k false h).congr fun z _ => by simp [readExponent]

theorem decided_tail (he : IsExponent e) : Decided (readTail positive n k) e := by
  cases he with
  | none =>
      exact (decided_assemble positive n k).congr fun z hz => readTail_of_ends hz
  | digits hletter hsign h =>
      exact (decided_exponent positive n k hsign h).congr fun z _ => by simp [readTail, hletter]

/-- The digits behind a point, and an exponent. -/
theorem decided_fraction {w : Bytes} (h : IsDigits w) (he : IsExponent e) :
    Decided (readFraction positive n k) (w ++ e) := by
  obtain ⟨value, count, left, hleft, htake⟩ := takeDigits_digits maxSignificand n 0 h.2
  have hstop : ∀ z, Ends z → startsWithDigit (e ++ z) = false := fun z hz => he.startsWithDigit hz
  cases left with
  | nil =>
      by_cases hcount : count = 0
      · refine .inr fun z hz =>
          ⟨.onto (if (e ++ z).isEmpty then .endInValue else .invalidNumber) (e ++ z), ?_⟩
        simp only [List.append_assoc, readFraction, htake _ (hstop z hz), List.nil_append,
          hstop z hz, Bool.false_eq_true, if_false, hcount, if_true]
      · refine (decided_tail positive value (k - count) he).congr fun z hz => ?_
        simp [readFraction, htake _ (hstop z hz), hstop z hz, hcount]
  | cons c left =>
      -- the significand has no room for all digits
      have hc : ∀ z, startsWithDigit (c :: left ++ z) = true := fun _ =>
        hleft c List.mem_cons_self
      refine (decided_tail positive value (k - count) he).congr fun z hz => ?_
      simp only [List.append_assoc, readFraction, htake _ (hstop z hz), hc, if_true,
        dropDigits_append hleft (hstop z hz)]

/-- What follows the digits of an integer. -/
theorem decided_integerTail (hf : IsFraction f) (he : IsExponent e) :
    Decided (readIntegerTail positive n) (f ++ e) := by
  cases hf with
  | digits h =>
      exact (decided_fraction positive n 0 h he).congr fun z _ => by simp [readIntegerTail]
  | none =>
      cases he with
      | none => exact .inl ⟨_, fun z hz => readIntegerTail_of_ends hz⟩
      | digits hletter hsign h =>
          have hpoint : ∀ letter : UInt8, letter = 0x65 ∨ letter = 0x45 → letter ≠ 0x2e := by
            rintro _ (rfl | rfl) <;> decide
          exact (decided_exponent positive n 0 hsign h).congr fun z _ => by
            simp [readIntegerTail, hletter, hpoint _ hletter]

/-- What follows the digits of an integer that is too long. -/
theorem decided_long {ds : Bytes} (hds : ∀ b ∈ ds, isDigit b = true) (hf : IsFraction f)
    (he : IsExponent e) : Decided (readLong positive n) (ds ++ (f ++ e)) := by
  have hstop : ∀ z, Ends z → startsWithDigit (f ++ (e ++ z)) = false := fun z hz =>
    hf.startsWithDigit he hz
  cases hf with
  | none =>
      refine (decided_tail positive n ds.length he).congr fun z hz => ?_
      have hpoint := he.head?_ne hz
      have hz := hstop z hz
      rw [List.nil_append] at hz
      rw [List.append_assoc, List.nil_append,
        readLong_of_dropDigits (dropDigits_append hds hz) hpoint, countDigits_append hds hz]
  | @digits w h =>
      refine (decided_fraction positive n ds.length h he).congr fun z hz => ?_
      have hz := hstop z hz
      rw [List.cons_append] at hz
      rw [List.append_assoc, List.append_assoc, List.append_assoc, List.cons_append,
        readLong_of_point (dropDigits_append hds hz), countDigits_append hds hz]

/-- **Numbers are decided**, their sign having been read. -/
theorem decided_number {i : Bytes} (hi : IsWhole i) (hf : IsFraction f) (he : IsExponent e) :
    Decided (readNumber positive) (i ++ (f ++ e)) := by
  have hstop : ∀ z, Ends z → startsWithDigit (f ++ (e ++ z)) = false := fun z hz =>
    hf.startsWithDigit he hz
  cases hi with
  | zero =>
      refine (decided_integerTail positive 0 hf he).congr fun z hz => ?_
      simp [readNumber, hstop z hz]
  | @digits d ds hd hzero hds =>
      obtain ⟨value, count, left, hleft, htake⟩ := takeDigits_digits maxSignificand (digitValue d) 0
        hds
      cases left with
      | nil =>
          refine (decided_integerTail positive value hf he).congr fun z hz => ?_
          simp [readNumber, hzero, hd, htake _ (hstop z hz), hstop z hz]
      | cons c left =>
          have hc : ∀ z, startsWithDigit (c :: left ++ z) = true := fun _ =>
            hleft c List.mem_cons_self
          refine (decided_long positive value hleft hf he).congr fun z hz => ?_
          simp only [List.append_assoc, List.cons_append, readNumber, hzero, if_false, hd, if_true,
            htake _ (hstop z hz)]
          rw [← List.cons_append, if_pos (hc _)]

end

/-! ### Verdicts on inputs -/

section

variable {α β σ : Type}

/-- A reader makes the same of all inputs that are described in some way, each with what follows:
it reads them, always for the same value, or refuses them. -/
def Judged (r : Reader β) (front : Bytes → Bytes → Prop) : Prop :=
  (∃ b, ∀ s rest, front s rest → r.run s = .ok (b, rest)) ∨
    ∀ s rest, front s rest → ∃ e, r.run s = .error e

variable {next : Bool → Bytes → Except Fault Next}
  {bound : ∀ {first : Bool} {s : Bytes} {n : Next},
    next first s = .ok n → n.rest.length ≤ s.length}
  {entry : Reader β} {front : α → Bytes → Bytes → Prop}

variable (next) (bound) in
/-- **A loop makes the same of all lists of entries that are judged**: it reads the values of the
entries, or it stops at one of them. -/
theorem judged_entries {as : List α} (h : ∀ a ∈ as, Judged entry (front a)) (step : σ → β → σ) :
    (∃ bs : List β, ∀ first s rest acc, Found next front first s as rest →
        foldEntries next bound entry step first acc s = (bs.foldl step acc, .ok rest)) ∨
      ∀ first s rest acc, Found next front first s as rest →
        ∃ acc' e, foldEntries next bound entry step first acc s = (acc', .error e) := by
  induction as with
  | nil =>
      refine .inl ⟨[], fun first s rest acc hfound => ?_⟩
      cases hfound with
      | finished hn => exact foldEntries_of_finished hn acc
  | cons a as ih =>
      rcases h a List.mem_cons_self with ⟨b, hb⟩ | hrefused
      · -- the verdict on the list is that on its rest
        rcases ih fun a ha => h a (List.mem_cons_of_mem _ ha) with ⟨bs, hbs⟩ | hrest
        · refine .inl ⟨b :: bs, fun first s rest acc hfound => ?_⟩
          cases hfound with
          | entry hn ha more =>
              rw [foldEntries_of_entry hn (hb _ _ ha)]
              exact hbs _ _ _ _ more
        · refine .inr fun first s rest acc hfound => ?_
          cases hfound with
          | entry hn ha more =>
              rw [foldEntries_of_entry hn (hb _ _ ha)]
              exact hrest _ _ _ _ more
      · refine .inr fun first s rest acc hfound => ?_
        cases hfound with
        | entry hn ha more =>
            obtain ⟨e, he⟩ := hrefused _ _ ha
            exact ⟨acc, e, foldEntries_of_fault hn he acc⟩

end

/-! ### Values -/

theorem value_run_congr {depth : Nat} {s t : Bytes} (h : skipBlank s = skipBlank t) :
    (value depth).run s = (value depth).run t := by
  rw [value_run, value_run, readValue, readValue, h]

/-- A value behind blanks is read as the value alone. -/
theorem run_of_skipBlank {d : Datum} {v s rest : Bytes} {depth : Nat} (hv : Derives (.value d) v)
    (hs : skipBlank s = v ++ rest) : (value depth).run s = (value depth).run (v ++ rest) := by
  obtain ⟨b, w, rfl, hb, -⟩ := hv.head
  exact value_run_congr (hs.trans (skipBlank_of_not_isBlank hb _).symm)

theorem decided_value_number {w : Bytes} (depth : Nat) (h : IsNumber w) :
    Decided (value depth).run w := by
  cases h with
  | unsigned hi hf he =>
      refine (decided_number true hi hf he).map Value.number fun z => ?_
      obtain ⟨b, digits, rfl, hb⟩ := hi.head
      rw [value_run]
      exact readValue_digit hb _ _
  | signed hi hf he =>
      refine (decided_number false hi hf he).map Value.number fun z => ?_
      rw [value_run]
      exact readValue_minus _ _

/-- A member is judged by its value. -/
theorem judged_member {depth : Nat} {m : String × Datum}
    (h : Judged (value depth) (ValueAt m.2)) : Judged (member (value depth)) (MemberAt m) := by
  rcases h with ⟨v, hv⟩ | hrefused
  · refine .inl ⟨(m.1, v), ?_⟩
    rintro s rest ⟨r, r', hkey, hcolon, hvalue⟩
    simp only [member, readMember, hkey, hcolon, hv r' rest hvalue]
  · refine .inr ?_
    rintro s rest ⟨r, r', hkey, hcolon, hvalue⟩
    obtain ⟨e, he⟩ := hrefused r' rest hvalue
    exact ⟨e, by simp only [member, readMember, hkey, hcolon, he]⟩

/-- Behind an opening bracket the items of an array are read. -/
theorem value_run_array {depth : Nat} {s t : Bytes} (hs : skipBlank s = 0x5b :: t) :
    (value (depth + 1)).run s = readArray (value depth) t := by
  rw [value_run, readValue, hs]
  rfl

/-- Behind an opening brace the members of an object are read. -/
theorem value_run_object {depth : Nat} {s t : Bytes} (hs : skipBlank s = 0x7b :: t) :
    (value (depth + 1)).run s = readObject (value depth) t := by
  rw [value_run, readValue, hs]
  rfl

theorem judged_array {depth : Nat} {ds : List Datum}
    (h : ∀ d ∈ ds, Judged (value depth) (ValueAt d)) :
    Judged (value (depth + 1)) (ValueAt (.array ds)) := by
  rcases judged_entries nextItem nextItem_length h (fun (items : List Value) v => v :: items) with
    ⟨vs, hvs⟩ | hrefused
  · refine .inl ⟨.array (vs.foldl (fun items v => v :: items) []).reverse, ?_⟩
    rintro s rest ⟨v, hv, hs, -⟩
    obtain ⟨w, rfl, hfound⟩ := hv.found_array
    have hs : skipBlank s = 0x5b :: (w ++ 0x5d :: rest) := by simpa using hs
    rw [value_run_array hs, readArray, foldItems, hvs _ _ _ _ (hfound rest)]
  · refine .inr ?_
    rintro s rest ⟨v, hv, hs, -⟩
    obtain ⟨w, rfl, hfound⟩ := hv.found_array
    have hs : skipBlank s = 0x5b :: (w ++ 0x5d :: rest) := by simpa using hs
    obtain ⟨items, e, he⟩ := hrefused true _ _ [] (hfound rest)
    exact ⟨e, by rw [value_run_array hs, readArray, foldItems, he]⟩

theorem judged_object {depth : Nat} {ms : List (String × Datum)}
    (h : ∀ m ∈ ms, Judged (value depth) (ValueAt m.2)) :
    Judged (value (depth + 1)) (ValueAt (.object ms)) := by
  rcases judged_entries nextMember nextMember_length (fun m hm => judged_member (h m hm))
    (fun (members : List (String × Value)) m => insertMember m.1 m.2 members) with
    ⟨read, hread⟩ | hrefused
  · refine .inl ⟨.object (read.foldl (fun members m => insertMember m.1 m.2 members) []), ?_⟩
    rintro s rest ⟨v, hv, hs, -⟩
    obtain ⟨w, rfl, hfound⟩ := hv.found_object
    have hs : skipBlank s = 0x7b :: (w ++ 0x7d :: rest) := by simpa using hs
    rw [value_run_object hs, readObject, foldMembers, hread _ _ _ _ (hfound rest)]
  · refine .inr ?_
    rintro s rest ⟨v, hv, hs, -⟩
    obtain ⟨w, rfl, hfound⟩ := hv.found_object
    have hs : skipBlank s = 0x7b :: (w ++ 0x7d :: rest) := by simpa using hs
    obtain ⟨members, e, he⟩ := hrefused true _ _ [] (hfound rest)
    exact ⟨e, by rw [value_run_object hs, readObject, foldMembers, he]⟩

/-- **Values are judged by their datum**: all texts of a datum are read for the same value, or all of
them are refused. -/
theorem judged_value (d : Datum) (depth : Nat) : Judged (value depth) (ValueAt d) := by
  induction d generalizing depth with
  | null =>
      refine .inl ⟨.null, ?_⟩
      rintro s rest ⟨v, hv, hs, -⟩
      rw [run_of_skipBlank hv hs, value_run]
      cases hv
      exact readValue_null _ rest
  | bool b =>
      refine .inl ⟨.bool b, ?_⟩
      rintro s rest ⟨v, hv, hs, -⟩
      have htext : v = (Value.bool b).text .compact := by cases hv <;> decide
      rw [run_of_skipBlank hv hs, value_run, htext]
      exact readValue_bool _ b .compact rest
  | number w =>
      by_cases hw : IsNumber w
      · rcases decided_value_number depth hw with ⟨v, hv⟩ | hrefused
        · refine .inl ⟨v, ?_⟩
          rintro s rest ⟨w', hw', hs, hends⟩
          rw [run_of_skipBlank hw' hs]
          cases hw'
          exact hv rest hends
        · refine .inr ?_
          rintro s rest ⟨w', hw', hs, hends⟩
          rw [run_of_skipBlank hw' hs]
          cases hw'
          exact hrefused rest hends
      · -- bytes that are no number have no text
        refine .inr ?_
        rintro s rest ⟨w', hw', -⟩
        cases hw' with
        | number h => exact absurd h hw
  | string t =>
      refine .inl ⟨.string t, ?_⟩
      rintro s rest ⟨v, hv, hs, -⟩
      rw [run_of_skipBlank hv hs, value_run]
      cases hv with
      | string h =>
          obtain ⟨w, rfl, htaken⟩ := h.taken
          have hdigit : isDigit 0x22 = false := by decide
          simp [readValue, hdigit, (htaken rest).1]
  | array ds ih =>
      cases depth with
      | zero =>
          refine .inr ?_
          rintro s rest ⟨v, hv, hs, -⟩
          obtain ⟨w, rfl, -⟩ := hv.found_array
          exact ⟨_, by rw [run_of_skipBlank hv hs]; rfl⟩
      | succ depth => exact judged_array fun d hd => ih d hd depth
  | object ms ih =>
      cases depth with
      | zero =>
          refine .inr ?_
          rintro s rest ⟨v, hv, hs, -⟩
          obtain ⟨w, rfl, -⟩ := hv.found_object
          exact ⟨_, by rw [run_of_skipBlank hv hs]; rfl⟩
      | succ depth => exact judged_object fun m hm => ih m hm depth

/-! ### Whole texts -/

/-- **All texts of a datum are parsed for the same value, or all of them are refused.** -/
theorem parse_judged (d : Datum) :
    (∃ v, ∀ s, Derives (.element d) s → parse s = .ok v) ∨
      ∀ s, Derives (.element d) s → ∃ e, parse s = .error e := by
  rcases judged_value d maxDepth with ⟨v, hv⟩ | hrefused
  · refine .inl ⟨v, fun s h => ?_⟩
    obtain ⟨b, hb, hend⟩ := h.element_at
    simp only [parse, hv s b hb, hend]
  · refine .inr fun s h => ?_
    obtain ⟨b, hb, -⟩ := h.element_at
    obtain ⟨e, he⟩ := hrefused s b hb
    exact ⟨e, by simp only [parse, he]⟩

end Roster.Json
