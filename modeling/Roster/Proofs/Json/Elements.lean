/-
**The texts of items and members.**

The value that an object is read as keeps one member for each key, so it does not say how often a
key was written.  To speak about that one has to go back to the text: here a loop keeps, for each
entry, the bytes that the entry was read from, and an object's text is read as the list of all its
members.  A successful loop is a derivation with one step for each entry; whatever is said about two
readers that walk over the same text is an induction on it.

Main definitions:

* `Roster.Json.EntryRun` — a successful run of a loop, entry by entry;
* `Roster.Json.Reader.withText` — a reader that gives the text it has taken as well;
* `Roster.Json.elements` — **the items of an array, each with its text**;
* `Roster.Json.membersOf`, `Roster.Json.keysOf` — **the members of an object's text**, and their
  keys, as often as they are written.

Main results:

* `Roster.Json.entries_eq_ok_iff` — the successful loops are the derivations;
* `Roster.Json.elements_of_parse` — the elements of a text that is one array;
* `Roster.Json.membersOf_of_reads` — the members of the text of an object, and the object.
-/

import Roster.Proofs.Json.Locality
import Roster.Proofs.Json.Members

set_option relaxedAutoImplicit false
set_option autoImplicit false

namespace Roster.Json

/-! ### Successful loops -/

/-- A successful run of a loop: from an input it reads some entries, and a rest is left behind the
closing bracket. -/
inductive EntryRun {α : Type} (next : Bool → Bytes → Except Fault Next) (entry : Reader α) :
    Bool → Bytes → List α → Bytes → Prop where
  /-- The closing bracket. -/
  | finished {first : Bool} {s rest : Bytes} (hn : next first s = .ok (.finished rest)) :
      EntryRun next entry first s [] rest
  /-- An entry, and the run behind it. -/
  | entry {first : Bool} {s t tail rest : Bytes} {a : α} {as : List α}
      (hn : next first s = .ok (.entry t)) (ha : entry.run t = .ok (a, tail))
      (more : EntryRun next entry false tail as rest) :
      EntryRun next entry first s (a :: as) rest

section

variable {α : Type} {next : Bool → Bytes → Except Fault Next}
  {bound : ∀ {first : Bool} {s : Bytes} {n : Next},
    next first s = .ok n → n.rest.length ≤ s.length}
  {r : Reader α} {first : Bool} {s rest : Bytes} {as : List α}

theorem EntryRun.foldEntries (h : EntryRun next r first s as rest) (acc : List α) :
    foldEntries next bound r (fun l a => a :: l) first acc s = (as.reverse ++ acc, .ok rest) := by
  induction h generalizing acc with
  | finished hn => exact foldEntries_of_finished hn acc
  | entry hn ha more ih =>
      rw [foldEntries_of_entry hn ha, ih, List.reverse_cons, List.append_assoc,
        List.singleton_append]

theorem EntryRun.of_foldEntries {acc acc' : List α}
    (h : Json.foldEntries next bound r (fun l a => a :: l) first acc s = (acc', .ok rest)) :
    ∃ as, acc' = as.reverse ++ acc ∧ EntryRun next r first s as rest := by
  fun_induction Json.foldEntries next bound r (fun l a => a :: l) first acc s with
  | case1 => cases h
  | case2 first acc s tail hn =>
      obtain ⟨rfl, hrest⟩ := Prod.mk.inj h
      obtain rfl := Except.ok.inj hrest
      exact ⟨[], rfl, .finished hn⟩
  | case3 => cases h
  | case4 first acc s t hn a tail ha ih =>
      obtain ⟨as, rfl, more⟩ := ih h
      exact ⟨a :: as, by simp, .entry hn ha more⟩

/-- The successful loops are the derivations. -/
theorem entries_eq_ok_iff :
    entries next bound r first s = (as, .ok rest) ↔ EntryRun next r first s as rest := by
  constructor
  · intro h
    obtain ⟨hacc, hend⟩ := Prod.mk.inj h
    obtain ⟨as', has, hrun⟩ := EntryRun.of_foldEntries (Prod.ext rfl hend)
    have heq : as = as' := (hacc.symm.trans (congrArg List.reverse has)).trans (by simp)
    exact heq ▸ hrun
  · intro h
    rw [entries, h.foldEntries, List.append_nil, List.reverse_reverse]

end

/-! ### Texts with their values -/

/-- A reader that gives the text it has taken as well. -/
def Reader.withText {α : Type} (r : Reader α) : Reader (Bytes × α) where
  run s :=
    match r.run s with
    | .error e => .error e
    | .ok (a, rest) => .ok ((s.take (s.length - rest.length), a), rest)
  shorter := by
    intro s rest x h
    split at h
    · cases h
    · rename_i a tail ha
      obtain ⟨-, rfl⟩ := Prod.mk.inj (Except.ok.inj h)
      exact r.shorter ha

section

variable {α : Type} {r : Reader α}

theorem Reader.withText_run {text rest : Bytes} {a : α} (h : r.run (text ++ rest) = .ok (a, rest)) :
    r.withText.run (text ++ rest) = .ok ((text, a), rest) := by
  simp [Reader.withText, h]

/-- A text that is read for a value is read with the value. -/
theorem Reads.withText {text : Bytes} {a : α} (h : Reads r text a) :
    Reads r.withText text (text, a) :=
  fun rest hrest => Reader.withText_run (h rest hrest)

/-- A loop can keep the texts of its entries, and each of them is the text of its value. -/
theorem EntryRun.withText {next : Bool → Bytes → Except Fault Next} (hr : r.Local) {first : Bool}
    {s rest : Bytes} {as : List α} (h : EntryRun next r first s as rest) :
    ∃ xs, EntryRun next r.withText first s xs rest ∧ xs.map Prod.snd = as ∧
      ∀ x ∈ xs, Reads r x.1 x.2 := by
  induction h with
  | finished hn => exact ⟨[], .finished hn, rfl, by simp⟩
  | @entry first s t tail rest a as hn ha more ih =>
      obtain ⟨xs, hxs, rfl, hreads⟩ := ih
      obtain ⟨text, rfl, htext⟩ := hr ha
      refine ⟨(text, a) :: xs, .entry hn (Reader.withText_run ha) hxs, rfl, ?_⟩
      exact List.forall_mem_cons.2 ⟨htext, hreads⟩

end

/-! ### The elements of an array -/

/-- The items of an array, each with its text. -/
def elements (content : Bytes) : List (Bytes × Value) :=
  match skipBlank content with
  | [] => []
  | _ :: rest => (items (value (maxDepth - 1)).withText rest).1

/-- The elements of a text that is one array: its items, each read from its own text. -/
theorem elements_of_parse {content : Bytes} {vs : List Value}
    (h : parse content = .ok (.array vs)) :
    (elements content).map Prod.snd = vs ∧
      ∀ x ∈ elements content, Reads (value (maxDepth - 1)) x.1 x.2 := by
  obtain ⟨rest, hs, rfl, tail, htail, -⟩ := (parse_array_iff content vs).1 h
  have hrun := entries_eq_ok_iff.1 (Prod.ext rfl htail)
  obtain ⟨xs, hxs, hvalues, hreads⟩ := hrun.withText (value_local _)
  have helements : elements content = xs := by
    rw [elements, hs]
    show (items _ rest).1 = xs
    rw [items, entries_eq_ok_iff.2 hxs]
  rw [helements]
  exact ⟨hvalues, hreads⟩

/-! ### The members of an object -/

/-- The members of the text of an object in an array, as often as they are written. -/
def membersOf (text : Bytes) : List (String × Value) :=
  match skipBlank text with
  | [] => []
  | _ :: rest => (entries nextMember nextMember_length (member (value (maxDepth - 2))) true rest).1

/-- The keys of the text of an object, as often as they are written. -/
def keysOf (text : Bytes) : List String := (membersOf text).map Prod.fst

/-- What has been read for a value whose first byte is `b`, if it is no word and no number. -/
def Begun (inner : Option (Reader Value)) (b : UInt8) (rest tail : Bytes) : Value → Prop
  | .string t => b = 0x22 ∧ readString rest = .ok (t, tail)
  | .array vs => b = 0x5b ∧ ∃ r, inner = some r ∧ readArray r rest = .ok (.array vs, tail)
  | .object ms => b = 0x7b ∧ ∃ r, inner = some r ∧ readObject r rest = .ok (.object ms, tail)
  | _ => True

/-- The first byte of a string, an array or an object says what it is. -/
theorem readValue_begun {inner : Option (Reader Value)} {s tail : Bytes} {v : Value}
    (h : readValue inner s = .ok (v, tail)) :
    ∃ b rest, skipBlank s = b :: rest ∧ Begun inner b rest tail v := by
  unfold readValue at h
  split at h
  · cases h
  rename_i b rest hs
  refine ⟨b, rest, hs, ?_⟩
  have hword : ∀ {word : Bytes} {w : Value}, readWordValue word w rest = .ok (v, tail) →
      v = w := by
    intro word w hw
    unfold readWordValue at hw
    split at hw <;> cases hw
    rfl
  split at h
  · obtain rfl := hword h
    trivial
  split at h
  · obtain rfl := hword h
    trivial
  split at h
  · obtain rfl := hword h
    trivial
  split at h
  · split at h <;> cases h
    trivial
  split at h
  · split at h <;> cases h
    trivial
  split at h
  · rename_i hb
    split at h <;> cases h
    exact ⟨hb, ‹_›⟩
  split at h
  · rename_i hb
    split at h
    · cases h
    have harray := h
    unfold readArray at harray
    split at harray <;> cases harray
    exact ⟨hb, _, rfl, h⟩
  split at h
  · rename_i hb
    split at h
    · cases h
    have hobject := h
    unfold readObject at hobject
    split at hobject <;> cases hobject
    exact ⟨hb, _, rfl, h⟩
  · cases h

/-- An array that has been read has the items of its loop. -/
theorem readArray_eq_ok {inner : Reader Value} {s rest : Bytes} {vs : List Value}
    (h : readArray inner s = .ok (.array vs, rest)) : EntryRun nextItem inner true s vs rest := by
  unfold readArray at h
  split at h
  · cases h
  rename_i found tail hfold
  obtain ⟨hfound, rfl⟩ := Prod.mk.inj (Except.ok.inj h)
  rw [foldItems, foldEntries_eq] at hfold
  obtain ⟨hitems, hend⟩ := Prod.mk.inj hfold
  rw [List.foldl_flip_cons_eq_append', List.append_nil] at hitems
  rw [← Value.array.inj hfound, ← hitems, List.reverse_reverse]
  exact entries_eq_ok_iff.1 (Prod.ext rfl hend)

/-- An object that has been read is the map of the members of its loop. -/
theorem readObject_eq_ok {inner : Reader Value} {s rest : Bytes} {ms : List (String × Value)}
    (h : readObject inner s = .ok (.object ms, rest)) :
    ∃ read, ms = memberMap read ∧ EntryRun nextMember (member inner) true s read rest := by
  unfold readObject at h
  split at h
  · cases h
  rename_i found tail hfold
  obtain ⟨hfound, rfl⟩ := Prod.mk.inj (Except.ok.inj h)
  rw [foldMembers, foldEntries_eq] at hfold
  obtain ⟨hmap, hend⟩ := Prod.mk.inj hfold
  refine ⟨_, ?_, entries_eq_ok_iff.1 (Prod.ext rfl hend)⟩
  rw [← Value.object.inj hfound, ← hmap, memberMap]

/-- The text of an object is that of its members, and the object is the map of these. -/
theorem membersOf_of_reads {text : Bytes} {ms : List (String × Value)}
    (h : Reads (value (maxDepth - 1)) text (.object ms)) :
    ∃ rest, skipBlank text = 0x7b :: rest ∧ ms = memberMap (membersOf text) ∧
      EntryRun nextMember (member (value (maxDepth - 2))) true rest (membersOf text) [] := by
  have hread : readValue (some (value (maxDepth - 2))) text = .ok (.object ms, []) := by
    rw [← List.append_nil text]
    exact h [] trivial
  obtain ⟨b, rest, hs, rfl, inner, hinner, hobject⟩ := readValue_begun hread
  obtain rfl := Option.some.inj hinner
  obtain ⟨read, rfl, hrun⟩ := readObject_eq_ok hobject
  have hmembers : membersOf text = read := by
    rw [membersOf, hs]
    exact congrArg Prod.fst (entries_eq_ok_iff.2 hrun)
  exact ⟨rest, hs, by rw [hmembers], hmembers ▸ hrun⟩

/-- In a text that has been printed the members are those of the object, as often as it has them. -/
theorem membersOf_text {ms : List (String × Value)}
    (h : ∀ m ∈ ms, Readable (maxDepth - 2) m.2) (style : Style) :
    membersOf ((Value.object ms).text style) = ms.map fun m => (m.1, m.2.normal) := by
  have hfold := foldMembers_joined (fun m hm => (h m hm).recovered style)
    (fun (l : List (String × Value)) m => m :: l) [] []
  rw [foldMembers, foldEntries_eq] at hfold
  have hmembers := (Prod.mk.inj hfold).1
  rw [List.foldl_flip_cons_eq_append', List.foldl_flip_cons_eq_append', List.append_nil,
    List.append_nil, List.reverse_inj] at hmembers
  have hbrace : isBlank 0x7b = false := by decide
  rw [text_object, membersOf, skipBlank_of_not_isBlank hbrace]
  exact hmembers

theorem keysOf_text {ms : List (String × Value)} (h : ∀ m ∈ ms, Readable (maxDepth - 2) m.2)
    (style : Style) : keysOf ((Value.object ms).text style) = ms.map Prod.fst := by
  rw [keysOf, membersOf_text h, List.map_map]
  rfl

end Roster.Json
