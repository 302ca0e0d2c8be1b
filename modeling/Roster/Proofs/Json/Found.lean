/-
**What a loop finds in a text of the grammar.**

A reader goes through an array or object entry by entry: it looks for the next entry or for the
closing bracket, reads the entry, and looks again.  The grammar lists entries with commas between
them and with blanks on either side of each.  Here the two are brought together once: in a list of
the grammar every loop finds the entries of the list in their order, each of them at the front of an
input, and then the end.  What a reader does to the entries is left to the reader.

Main definitions:

* `Roster.Json.Found` — the entries that a loop finds in an input;
* `Roster.Json.Advances` — how a loop goes on from one entry to the next;
* `Roster.Json.ValueAt`, `Roster.Json.MemberAt` — a value or a member at the front of an input.

Main results:

* `Roster.Json.Listed.found` — **a loop finds the entries of a list**;
* `Roster.Json.Derives.found_array`, `Roster.Json.Derives.found_object` — what stands between the
  brackets of a value.
-/

import Roster.Proofs.Json.Skip

set_option relaxedAutoImplicit false
set_option autoImplicit false

namespace Roster.Json

/-! ### Loops -/

section

variable {α : Type} {next : Bool → Bytes → Except Fault Next}

/-- The entries that a loop finds in an input, and what it leaves behind the closing bracket; `front`
says which entry stands at the front of an input, and what follows it. -/
inductive Found (next : Bool → Bytes → Except Fault Next) (front : α → Bytes → Bytes → Prop) :
    Bool → Bytes → List α → Bytes → Prop where
  /-- The closing bracket comes next. -/
  | finished {first : Bool} {s rest : Bytes} (hn : next first s = .ok (.finished rest)) :
      Found next front first s [] rest
  /-- An entry comes next. -/
  | entry {first : Bool} {s t tail rest : Bytes} {a : α} {as : List α}
      (hn : next first s = .ok (.entry t)) (ha : front a t tail)
      (more : Found next front false tail as rest) : Found next front first s (a :: as) rest

/-- How a loop goes on: from the opening bracket to an entry, over a comma to another one, and to
the closing bracket.  `starts` says with which byte an entry begins. -/
structure Advances (next : Bool → Bytes → Except Fault Next) (close : UInt8)
    (starts : UInt8 → Prop) : Prop where
  /-- To the first entry. -/
  first : ∀ {s t : Bytes} {c : UInt8}, skipBlank s = c :: t → starts c →
    next true s = .ok (.entry (c :: t))
  /-- Over a comma. -/
  comma : ∀ {s z t : Bytes} {c : UInt8}, skipBlank s = 0x2c :: z → skipBlank z = c :: t →
    starts c → next false s = .ok (.entry (c :: t))
  /-- To the end. -/
  finish : ∀ {first : Bool} {s rest : Bytes}, skipBlank s = close :: rest →
    next first s = .ok (.finished rest)
  /-- The closing bracket is no blank. -/
  close_not_blank : isBlank close = false
  /-- The closing bracket may follow a value. -/
  ends_close : ∀ z, Ends (close :: z)

theorem advances_items : Advances nextItem 0x5d (· ≠ 0x5d) where
  first := by
    intro s t c hs hc
    simp [nextItem, hs, hc]
  comma := by
    intro s z t c hs hz hc
    simp [nextItem, hs, hz, hc]
  finish := by
    intro first s rest hs
    simp [nextItem, hs]
  close_not_blank := by decide
  ends_close := ends_structural _ (by decide)

theorem advances_members : Advances nextMember 0x7d (· = 0x22) where
  first := by
    rintro s t c hs rfl
    simp [nextMember, hs]
  comma := by
    rintro s z t c hs hz rfl
    simp [nextMember, hs, hz]
  finish := by
    intro first s rest hs
    simp [nextMember, hs]
  close_not_blank := by decide
  ends_close := ends_structural _ (by decide)

/-- The texts of entries put them at the front of an input, up to blanks before and behind them. -/
def Fronts (starts : UInt8 → Prop) (front : α → Bytes → Bytes → Prop) (entry : α → Bytes → Prop) :
    Prop :=
  ∀ a w, entry a w → ∃ b, IsBlanks b ∧ ∀ z, Ends z →
    ∃ c t, skipBlank (w ++ z) = c :: t ∧ starts c ∧ front a (c :: t) (b ++ z)

variable {close : UInt8} {starts : UInt8 → Prop} {front : α → Bytes → Bytes → Prop}
  {entry : α → Bytes → Prop}

/-- A list begins as its first entry does. -/
theorem Listed.head (hfronts : Fronts starts front entry) {as : List α} {w : Bytes}
    (h : Listed entry as w) {z : Bytes} (hz : Ends z) :
    ∃ c t, skipBlank (w ++ z) = c :: t ∧ starts c := by
  cases h with
  | last h =>
      obtain ⟨b, -, hw⟩ := hfronts _ _ h
      obtain ⟨c, t, hs, hc, -⟩ := hw z hz
      exact ⟨c, t, hs, hc⟩
  | @more _ _ w w' h _ =>
      obtain ⟨b, -, hw⟩ := hfronts _ _ h
      obtain ⟨c, t, hs, hc, -⟩ := hw (0x2c :: (w' ++ z)) (ends_structural _ (by decide) _)
      exact ⟨c, t, by simpa using hs, hc⟩

/-- **A loop finds the entries of a list**, in their order, wherever it may stand before the
first. -/
theorem Listed.found (hnext : Advances next close starts) (hfronts : Fronts starts front entry)
    {as : List α} {w rest : Bytes} (h : Listed entry as w) {first : Bool} {s : Bytes}
    (hs : next first s = next true (w ++ close :: rest)) : Found next front first s as rest := by
  induction h generalizing first s with
  | last h =>
      obtain ⟨b, hb, hw⟩ := hfronts _ _ h
      obtain ⟨c, t, hc, hstarts, ha⟩ := hw _ (hnext.ends_close rest)
      refine .entry (hs.trans (hnext.first hc hstarts)) ha (.finished (hnext.finish ?_))
      exact skipBlank_blanks hb hnext.close_not_blank rest
  | @more a as w w' h h' ih =>
      obtain ⟨b, hb, hw⟩ := hfronts _ _ h
      obtain ⟨c, t, hc, hstarts, ha⟩ :=
        hw (0x2c :: (w' ++ close :: rest)) (ends_structural _ (by decide) _)
      obtain ⟨c', t', hc', hstarts'⟩ := h'.head hfronts (hnext.ends_close rest)
      rw [List.append_assoc, List.cons_append] at hs
      refine .entry (hs.trans (hnext.first hc hstarts)) ha (ih ?_)
      -- behind the comma the loop stands where it would stand before the rest of the list
      rw [hnext.comma (skipBlank_blanks hb (by decide) _) hc' hstarts', hnext.first hc' hstarts']

end

/-! ### Values and members -/

/-- A value at the front of an input, behind blanks, and what follows it. -/
def ValueAt (d : Datum) (s rest : Bytes) : Prop :=
  ∃ v, Derives (.value d) v ∧ skipBlank s = v ++ rest ∧ Ends rest

/-- A member whose opening quote is the first byte of an input, and what follows it. -/
def MemberAt (m : String × Datum) (s rest : Bytes) : Prop :=
  ∃ r r', readString (s.drop 1) = .ok (m.1, r) ∧ readColon r = .ok r' ∧ ValueAt m.2 r' rest

/-- An element is a value at its front, and nothing but blanks follows the value. -/
theorem Derives.element_at {d : Datum} {s : Bytes} (h : Derives (.element d) s) :
    ∃ b, ValueAt d s b ∧ readEnd b = .ok () := by
  obtain ⟨v, b, hv, hb, hs⟩ := h.element_taken
  have hs := hs []
  have hends : Ends (b ++ []) := ends_blanks hb (show Ends [] from trivial)
  have hend := skipBlank_append hb []
  rw [List.append_nil] at hends hend
  rw [List.append_nil, List.append_nil] at hs
  refine ⟨b, ⟨v, hv, hs, hends⟩, ?_⟩
  rw [readEnd, hend]
  rfl

theorem fronts_element :
    Fronts (· ≠ 0x5d) ValueAt fun d w => Derives (.element d) w := by
  intro d w h
  obtain ⟨v, b, hv, hb, hw⟩ := h.element_taken
  obtain ⟨c, t, rfl, hc, hclose, -⟩ := hv.head
  refine ⟨b, hb, fun z hz => ⟨c, _, hw z, hclose, _, hv, ?_, ends_blanks hb hz⟩⟩
  exact skipBlank_of_not_isBlank hc _

theorem fronts_member :
    Fronts (· = 0x22) MemberAt fun m w => Derives (.member m) w := by
  intro m w h
  cases h with
  | member hb hk hb' h =>
      obtain ⟨v, b, hv, hblanks, hw⟩ := h.element_taken
      refine ⟨b, hblanks, fun z hz => ?_⟩
      obtain ⟨t, r, hs, hread, -, hcolon⟩ := key_taken hb hk hb' (_ ++ z)
      refine ⟨0x22, t, ?_, rfl, r, _, hread, hcolon, v, hv, hw z, ends_blanks hblanks hz⟩
      rw [← hs]
      simp

/-- Between the brackets of an array a loop finds its items. -/
theorem Derives.found_array {ds : List Datum} {v : Bytes} (h : Derives (.value (.array ds)) v) :
    ∃ w, v = 0x5b :: (w ++ [0x5d]) ∧
      ∀ rest, Found nextItem ValueAt true (w ++ 0x5d :: rest) ds rest := by
  cases h with
  | @emptyArray b hb =>
      refine ⟨b, rfl, fun rest => .finished (advances_items.finish ?_)⟩
      exact skipBlank_blanks hb (by decide) rest
  | @array _ w h =>
      exact ⟨w, rfl, fun rest =>
        (derives_elements_iff.1 h).found advances_items fronts_element rfl⟩

/-- Between the braces of an object a loop finds its members. -/
theorem Derives.found_object {ms : List (String × Datum)} {v : Bytes}
    (h : Derives (.value (.object ms)) v) :
    ∃ w, v = 0x7b :: (w ++ [0x7d]) ∧
      ∀ rest, Found nextMember MemberAt true (w ++ 0x7d :: rest) ms rest := by
  cases h with
  | @emptyObject b hb =>
      refine ⟨b, rfl, fun rest => .finished (advances_members.finish ?_)⟩
      exact skipBlank_blanks hb (by decide) rest
  | @object _ w h =>
      exact ⟨w, rfl, fun rest =>
        (derives_members_iff.1 h).found advances_members fronts_member rfl⟩

end Roster.Json
