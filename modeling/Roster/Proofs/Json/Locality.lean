/-
**How far a value reaches.**

Within an array or object a comma, a blank or a bracket follows each value, and each of them ends a
value.  So the entries of an array or object are the same whatever follows the closing bracket, and
from the tokens on every value takes a text of its own.  A reader of values never looks beyond the
value, but for the one byte that may go on with a number.

Main definitions:

* `Roster.Json.Reader.Local` — all readings of a reader take a text that is over where a value may
  end;
* `Roster.Json.Settled` — how a loop finds its entries does not depend on what follows them.

Main results:

* `Roster.Json.foldEntries_extent` — **a loop over local entries takes a text of its own**;
* `Roster.Json.value_local` — **the reader of values is local**.
-/

import Roster.Proofs.Json.Extent
import Roster.Proofs.Json.RoundTrip

set_option relaxedAutoImplicit false
set_option autoImplicit false

namespace Roster.Json

/-! ### Local readers -/

/-- All readings of a reader take a text that is over where a value may end. -/
def Reader.Local {α : Type} (r : Reader α) : Prop :=
  ∀ {s rest : Bytes} {a : α}, r.run s = .ok (a, rest) →
    ∃ text, s = text ++ rest ∧ Reads r text a

/-- The text of a value is not empty. -/
theorem Reads.ne_nil {α : Type} {r : Reader α} {text : Bytes} {a : α} (h : Reads r text a) :
    text ≠ [] := by
  rintro rfl
  have hlt := r.shorter (h [] trivial)
  simp at hlt

/-! ### Blanks and words -/

/-- Blanks are skipped in front of every input that goes on in the same way. -/
theorem skipBlank_eq_cons {s rest : Bytes} {b : UInt8} (h : skipBlank s = b :: rest) :
    ∃ blanks, (∀ c ∈ blanks, isBlank c = true) ∧ isBlank b = false ∧ s = blanks ++ b :: rest := by
  induction s with
  | nil => simp [skipBlank] at h
  | cons c s ih =>
      by_cases hc : isBlank c = true
      · rw [skipBlank, if_pos hc] at h
        obtain ⟨blanks, hblanks, hb, rfl⟩ := ih h
        refine ⟨c :: blanks, ?_, hb, rfl⟩
        intro d hd
        rcases List.mem_cons.1 hd with rfl | hd
        · exact hc
        · exact hblanks d hd
      · rw [skipBlank, if_neg hc] at h
        obtain ⟨rfl, rfl⟩ := List.cons.inj h
        exact ⟨[], by simp, by simpa using hc, rfl⟩

theorem skipBlank_blanks {blanks : Bytes} (h : ∀ c ∈ blanks, isBlank c = true) {b : UInt8}
    (hb : isBlank b = false) (z : Bytes) : skipBlank (blanks ++ b :: z) = b :: z := by
  rw [skipBlank_append h, skipBlank_of_not_isBlank hb]

/-- A value ends where blanks begin, or what follows them if there are none. -/
theorem ends_blanks {blanks : Bytes} (h : ∀ c ∈ blanks, isBlank c = true) {z : Bytes}
    (hz : Ends z) : Ends (blanks ++ z) := by
  cases blanks with
  | nil => exact hz
  | cons c blanks =>
      have hc := h c List.mem_cons_self
      have hne : ∀ {d : UInt8}, isBlank d = false → c ≠ d := by
        rintro d hd rfl
        rw [hc] at hd
        contradiction
      refine ⟨?_, hne (by decide), hne (by decide), hne (by decide)⟩
      cases hd : isDigit c with
      | false => rfl
      | true => rw [isBlank_of_isDigit hd] at hc; contradiction

/-- A word has been read exactly if the input begins with it. -/
theorem readWord_eq_ok_iff {word s rest : Bytes} :
    readWord word s = .ok rest ↔ s = word ++ rest := by
  induction word generalizing s with
  | nil => simp [readWord]
  | cons c word ih =>
      cases s with
      | nil => simp [readWord]
      | cons b s =>
          by_cases hb : b = c
          · simp [readWord, hb, ih]
          · simp [readWord, hb]

/-! ### Separators -/

/-- How a loop finds its entries does not depend on what follows them: the end of an array or
object is found in front of every input, and the start of an entry in front of every input that
begins with the same byte.  What stands between entries ends a value. -/
structure Settled (next : Bool → Bytes → Except Fault Next) : Prop where
  /-- The end. -/
  finished : ∀ {first : Bool} {s rest : Bytes}, next first s = .ok (.finished rest) →
    ∃ text, s = text ++ rest ∧
      ∀ z, next first (text ++ z) = .ok (.finished z) ∧ Ends (text ++ z)
  /-- The start of an entry. -/
  entry : ∀ {first : Bool} {s t : Bytes}, next first s = .ok (.entry t) →
    ∃ text, s = text ++ t ∧ ∀ z, z.head? = t.head? →
      next first (text ++ z) = .ok (.entry z) ∧ (first = false → Ends (text ++ z))

theorem eq_cons_of_head? {b : UInt8} {t z : Bytes} (h : z.head? = (b :: t).head?) :
    ∃ z', z = b :: z' := by
  cases z with
  | nil => cases h
  | cons c z => exact ⟨z, by rw [Option.some.inj h]⟩

/-- A comma, blanks before it, ends a value. -/
theorem ends_comma {blanks : Bytes} (h : ∀ c ∈ blanks, isBlank c = true) (z : Bytes) :
    Ends (blanks ++ 0x2c :: z) :=
  ends_blanks h ⟨by decide, by decide, by decide, by decide⟩

theorem settled_items : Settled nextItem where
  finished := by
    intro first s rest h
    unfold nextItem at h
    split at h
    · cases h
    rename_i b tail hs
    obtain ⟨blanks, hblanks, -, rfl⟩ := skipBlank_eq_cons hs
    split at h
    · rename_i hclose
      obtain rfl := Next.finished.inj (Except.ok.inj h)
      subst hclose
      refine ⟨blanks ++ [0x5d], by simp, ?_⟩
      intro z
      rw [List.append_assoc, List.singleton_append]
      refine ⟨?_, ends_blanks hblanks ⟨by decide, by decide, by decide, by decide⟩⟩
      simp [nextItem, skipBlank_append hblanks]
    · -- only a closing bracket finishes an array
      repeat' split at h
      all_goals cases h
  entry := by
    intro first s t h
    unfold nextItem at h
    split at h
    · cases h
    rename_i b tail hs
    obtain ⟨blanks, hblanks, hb, rfl⟩ := skipBlank_eq_cons hs
    split at h
    · cases h
    rename_i hclose
    split at h
    · rename_i hfirst
      obtain rfl := Next.entry.inj (Except.ok.inj h)
      subst hfirst
      refine ⟨blanks, rfl, ?_⟩
      intro z hz
      obtain ⟨z, rfl⟩ := eq_cons_of_head? hz
      simp [nextItem, skipBlank_blanks hblanks hb, hclose]
    rename_i hfirst
    split at h
    · rename_i hcomma
      subst hcomma
      split at h
      · cases h
      rename_i c tail' hs'
      obtain ⟨blanks', hblanks', hc, rfl⟩ := skipBlank_eq_cons hs'
      split at h
      · cases h
      rename_i hclose'
      obtain rfl := Next.entry.inj (Except.ok.inj h)
      refine ⟨blanks ++ 0x2c :: blanks', by simp, ?_⟩
      intro z hz
      obtain ⟨z, rfl⟩ := eq_cons_of_head? hz
      rw [List.append_assoc, List.cons_append]
      refine ⟨?_, fun _ => ends_comma hblanks _⟩
      simp [nextItem, skipBlank_blanks hblanks hb, skipBlank_blanks hblanks' hc, hfirst, hclose']
    · cases h

theorem settled_members : Settled nextMember where
  finished := by
    intro first s rest h
    unfold nextMember at h
    split at h
    · cases h
    rename_i b tail hs
    obtain ⟨blanks, hblanks, -, rfl⟩ := skipBlank_eq_cons hs
    split at h
    · rename_i hclose
      obtain rfl := Next.finished.inj (Except.ok.inj h)
      subst hclose
      refine ⟨blanks ++ [0x7d], by simp, ?_⟩
      intro z
      rw [List.append_assoc, List.singleton_append]
      refine ⟨?_, ends_blanks hblanks ⟨by decide, by decide, by decide, by decide⟩⟩
      simp [nextMember, skipBlank_append hblanks]
    · -- only a closing bracket finishes an object
      repeat' split at h
      all_goals cases h
  entry := by
    intro first s t h
    unfold nextMember at h
    split at h
    · cases h
    rename_i b tail hs
    obtain ⟨blanks, hblanks, hb, rfl⟩ := skipBlank_eq_cons hs
    split at h
    · cases h
    rename_i hclose
    split at h
    · rename_i hfirst
      split at h
      · rename_i hquote
        obtain rfl := Next.entry.inj (Except.ok.inj h)
        subst hfirst hquote
        refine ⟨blanks, rfl, ?_⟩
        intro z hz
        obtain ⟨z, rfl⟩ := eq_cons_of_head? hz
        simp [nextMember, skipBlank_append hblanks]
      · cases h
    rename_i hfirst
    split at h
    · rename_i hcomma
      subst hcomma
      split at h
      · cases h
      rename_i c tail' hs'
      obtain ⟨blanks', hblanks', hc, rfl⟩ := skipBlank_eq_cons hs'
      split at h
      · rename_i hquote
        obtain rfl := Next.entry.inj (Except.ok.inj h)
        subst hquote
        refine ⟨blanks ++ 0x2c :: blanks', by simp, ?_⟩
        intro z hz
        obtain ⟨z, rfl⟩ := eq_cons_of_head? hz
        rw [List.append_assoc, List.cons_append]
        refine ⟨?_, fun _ => ends_comma hblanks _⟩
        simp [nextMember, skipBlank_append hblanks, skipBlank_append hblanks', hfirst]
      · split at h <;> cases h
    · cases h

/-! ### Members -/

theorem readColon_eq_ok {s rest : Bytes} (h : readColon s = .ok rest) :
    ∃ text, s = text ++ rest ∧ ∀ z, readColon (text ++ z) = .ok z := by
  unfold readColon at h
  split at h
  · cases h
  rename_i b tail hs
  obtain ⟨blanks, hblanks, -, rfl⟩ := skipBlank_eq_cons hs
  split at h
  · rename_i hb
    obtain rfl := Except.ok.inj h
    subst hb
    refine ⟨blanks ++ [0x3a], by simp, ?_⟩
    intro z
    simp [readColon, skipBlank_append hblanks]
  · cases h

/-- What a member that has been read consists of. -/
theorem readMember_eq_ok {α : Type} {value : Reader α} {s rest : Bytes} {m : String × α}
    (h : readMember value s = .ok (m, rest)) :
    ∃ tail tail', readString (s.drop 1) = .ok (m.1, tail) ∧ readColon tail = .ok tail' ∧
      value.run tail' = .ok (m.2, rest) := by
  unfold readMember at h
  split at h
  · cases h
  rename_i key tail hkey
  split at h
  · cases h
  rename_i tail' hcolon
  split at h
  · cases h
  rename_i v tail'' hv
  obtain ⟨rfl, rfl⟩ := Prod.mk.inj (Except.ok.inj h)
  exact ⟨tail, tail', hkey, hcolon, hv⟩

/-- A member is local if its value is. -/
theorem member_local {α : Type} {value : Reader α} (hvalue : value.Local) :
    (member value).Local := by
  intro s rest m h
  obtain ⟨tail, tail', hkey, hcolon, hv⟩ := readMember_eq_ok h
  obtain ⟨text, htext, hread⟩ := readString_extent hkey
  obtain ⟨text', rfl, hread'⟩ := readColon_eq_ok hcolon
  obtain ⟨text'', rfl, hread''⟩ := hvalue hv
  -- the opening quote is dropped unseen
  cases s with
  | nil => exact absurd (readString_length hkey) (by simp)
  | cons b s =>
      obtain rfl : s = text ++ (text' ++ (text'' ++ rest)) := htext
      refine ⟨b :: (text ++ (text' ++ text'')), by simp, ?_⟩
      intro z hz
      simp only [member, List.cons_append, List.append_assoc, readMember, List.drop_succ_cons,
        List.drop_zero, hread _ trivial, hread' _, hread'' z hz]

/-! ### Loops -/

section

variable {α σ : Type} {next : Bool → Bytes → Except Fault Next}
  {bound : ∀ {first : Bool} {s : Bytes} {n : Next},
    next first s = .ok n → n.rest.length ≤ s.length}
  {entry : Reader α} {step : σ → α → σ}

/-- **A loop over local entries takes a text of its own**: it comes to the same state and to the
same place in front of every input. -/
theorem foldEntries_extent (hnext : Settled next) (hentry : entry.Local) {first : Bool}
    {acc acc' : σ} {s rest : Bytes}
    (h : foldEntries next bound entry step first acc s = (acc', .ok rest)) :
    ∃ text, s = text ++ rest ∧
      ∀ z, foldEntries next bound entry step first acc (text ++ z) = (acc', .ok z) ∧
        (first = false → Ends (text ++ z)) := by
  -- what follows an entry is the text of the rest of the loop, so it ends a value
  fun_induction foldEntries next bound entry step first acc s with
  | case1 => cases h
  | case2 first acc s tail hn =>
      obtain ⟨rfl, hrest⟩ := Prod.mk.inj h
      obtain rfl := Except.ok.inj hrest
      obtain ⟨text, rfl, htext⟩ := hnext.finished hn
      refine ⟨text, rfl, ?_⟩
      intro z
      exact ⟨foldEntries_of_finished (htext z).1 _, fun _ => (htext z).2⟩
  | case3 => cases h
  | case4 first acc s t hn a tail he ih =>
      obtain ⟨text'', rfl, hloop⟩ := ih h
      obtain ⟨text', rfl, hread⟩ := hentry he
      obtain ⟨text, rfl, hstart⟩ := hnext.entry hn
      refine ⟨text ++ (text' ++ text''), by simp, ?_⟩
      intro z
      have hhead : (text' ++ (text'' ++ z)).head? = (text' ++ (text'' ++ rest)).head? :=
        head?_append_eq hread.ne_nil _ _
      obtain ⟨hentered, hends⟩ := hstart _ hhead
      rw [List.append_assoc, List.append_assoc]
      refine ⟨?_, hends⟩
      rw [foldEntries_of_entry hentered (hread _ ((hloop z).2 rfl))]
      exact (hloop z).1

end

/-! ### Values -/

theorem readArray_extent {inner : Reader Value} (hinner : inner.Local) {s rest : Bytes}
    {v : Value} (h : readArray inner s = .ok (v, rest)) :
    Extent Whatever (readArray inner) s v rest := by
  unfold readArray at h
  split at h
  · cases h
  rename_i vs tail hfold
  obtain ⟨rfl, rfl⟩ := Prod.mk.inj (Except.ok.inj h)
  obtain ⟨text, rfl, hloop⟩ := foldEntries_extent settled_items hinner hfold
  refine ⟨text, rfl, ?_⟩
  intro z _
  have hz : foldItems inner (fun items v => v :: items) [] (text ++ z) = (vs, .ok z) :=
    (hloop z).1
  rw [readArray, hz]

theorem readObject_extent {inner : Reader Value} (hinner : inner.Local) {s rest : Bytes}
    {v : Value} (h : readObject inner s = .ok (v, rest)) :
    Extent Whatever (readObject inner) s v rest := by
  unfold readObject at h
  split at h
  · cases h
  rename_i ms tail hfold
  obtain ⟨rfl, rfl⟩ := Prod.mk.inj (Except.ok.inj h)
  obtain ⟨text, rfl, hloop⟩ := foldEntries_extent settled_members (member_local hinner) hfold
  refine ⟨text, rfl, ?_⟩
  intro z _
  have hz : foldMembers inner (fun members m => insertMember m.1 m.2 members) [] (text ++ z) =
      (ms, .ok z) := (hloop z).1
  rw [readObject, hz]

theorem readWordValue_extent {word s rest : Bytes} {v w : Value}
    (h : readWordValue word v s = .ok (w, rest)) :
    Extent Whatever (readWordValue word v) s w rest := by
  unfold readWordValue at h
  split at h
  · cases h
  rename_i tail hword
  obtain ⟨rfl, rfl⟩ := Prod.mk.inj (Except.ok.inj h)
  refine ⟨word, readWord_eq_ok_iff.1 hword, ?_⟩
  intro z _
  rw [readWordValue, readWord_eq_ok_iff.2 rfl]

/-- A value that is read by a reader of its own kind takes the blanks before it, its first byte and
what that reader takes. -/
theorem Extent.value {α : Type} {inner : Option (Reader Value)} {may : Bytes → Prop}
    {read : Bytes → Read α} {f : α → Value} {blanks s rest : Bytes} {b : UInt8} {a : α}
    (h : Extent may read s a rest) (hmay : ∀ z, Ends z → may z)
    (hread : ∀ t z, read t = .ok (a, z) → readValue inner (blanks ++ b :: t) = .ok (f a, z)) :
    Extent Ends (readValue inner) (blanks ++ b :: s) (f a) rest := by
  obtain ⟨text, rfl, htext⟩ := h
  refine ⟨blanks ++ b :: text, by simp, ?_⟩
  intro z hz
  rw [List.append_assoc, List.cons_append]
  exact hread _ z (htext z (hmay z hz))

theorem readValue_extent {inner : Option (Reader Value)}
    (hinner : ∀ r, inner = some r → r.Local) {s rest : Bytes} {v : Value}
    (h : readValue inner s = .ok (v, rest)) : Extent Ends (readValue inner) s v rest := by
  unfold readValue at h
  split at h
  · cases h
  rename_i b tail hs
  obtain ⟨blanks, hblanks, hb, rfl⟩ := skipBlank_eq_cons hs
  have hstart : ∀ t, skipBlank (blanks ++ b :: t) = b :: t := skipBlank_blanks hblanks hb
  -- the first byte says which reader goes on
  split at h
  · rename_i hnull
    subst hnull
    exact (readWordValue_extent h).value (f := id) (fun _ _ => trivial) fun t z ht => by
      simp [readValue, hstart, ht]
  rename_i hnull
  split at h
  · rename_i htrue
    subst htrue
    exact (readWordValue_extent h).value (f := id) (fun _ _ => trivial) fun t z ht => by
      simp [readValue, hstart, ht]
  rename_i htrue
  split at h
  · rename_i hfalse
    subst hfalse
    exact (readWordValue_extent h).value (f := id) (fun _ _ => trivial) fun t z ht => by
      simp [readValue, hstart, ht]
  rename_i hfalse
  split at h
  · rename_i hsign
    subst hsign
    split at h
    · cases h
    rename_i n tail' hn
    obtain ⟨rfl, rfl⟩ := Prod.mk.inj (Except.ok.inj h)
    exact (readNumber_extent hn).value (fun _ hz => hz) fun t z ht => by
      simp [readValue, hstart, ht]
  rename_i hsign
  split at h
  · rename_i hdigit
    split at h
    · cases h
    rename_i n tail' hn
    obtain ⟨rfl, rfl⟩ := Prod.mk.inj (Except.ok.inj h)
    have hnumber : Extent Ends (fun t => readNumber true (b :: t)) tail n tail' :=
      (readNumber_extent hn).of_cons trivial fun r hr => by cases hr
    exact hnumber.value (fun _ hz => hz) fun t z ht => by
      simp [readValue, hstart, hnull, htrue, hfalse, hsign, hdigit, ht]
  rename_i hdigit
  split at h
  · rename_i hquote
    subst hquote
    split at h
    · cases h
    rename_i t tail' ht
    obtain ⟨rfl, rfl⟩ := Prod.mk.inj (Except.ok.inj h)
    exact (readString_extent ht).value (fun _ _ => trivial) fun t z ht => by
      simp [readValue, hstart, hdigit, ht]
  rename_i hquote
  split at h
  · rename_i hopen
    subst hopen
    cases inner with
    | none => cases h
    | some inner =>
        exact (readArray_extent (hinner inner rfl) h).value (f := id) (fun _ _ => trivial)
          fun t z ht => by
            simp [readValue, hstart, hdigit, ht]
  rename_i hopen
  split at h
  · rename_i hbrace
    subst hbrace
    cases inner with
    | none => cases h
    | some inner =>
        exact (readObject_extent (hinner inner rfl) h).value (f := id) (fun _ _ => trivial)
          fun t z ht => by
            simp [readValue, hstart, hdigit, ht]
  · cases h

/-- **The reader of values is local**, however many brackets it may open. -/
theorem value_local (depth : Nat) : (value depth).Local := by
  induction depth with
  | zero =>
      intro s rest v h
      show Extent Ends (readValue none) s v rest
      exact readValue_extent (fun r hr => by cases hr) h
  | succ depth ih =>
      intro s rest v h
      show Extent Ends (readValue (some (value depth))) s v rest
      refine readValue_extent ?_ h
      intro r hr
      obtain rfl := Option.some.inj hr
      exact ih

end Roster.Json
