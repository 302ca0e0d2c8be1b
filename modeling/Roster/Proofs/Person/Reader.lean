/-
**The strict reader and the keys of an object.**

The strict reader of persons takes an object only if each key of a field is written once, whereas
the reader of values takes every object and lets the last member of a key count.  Where all keys are
those of fields the two walk over the same members, one by one: what the strict reader gathers is
described here by the list of these members alone.  On the text of an object that matches a person,
the two readers agree exactly if no key is written twice.

Main definitions:

* `Roster.Person.gather?` — what the strict reader makes of some members.

Main results:

* `Roster.Person.readMembers_iff` — the strict reader goes along with the reader of values, member
  by member;
* `Roster.Person.gather?_of_nodup`, `Roster.Person.nodup_of_gather?` — members are gathered if and
  only if no key is written twice;
* `Roster.Person.parse_of_matches` — **the strict reader on the text of a matching object**.
-/

import Roster.Proofs.Dataset.Document
import Roster.Proofs.Json.Elements

set_option relaxedAutoImplicit false
set_option autoImplicit false

namespace Roster

open Json

/-! ### Keys of fields -/

theorem Field.ofKey?_key (f : Field) : ofKey? f.key = some f := by
  have h : ∀ f ∈ all, ofKey? f.key = some f := by decide
  exact h f (mem_all f)

theorem Field.key_injective {f g : Field} (h : f.key = g.key) : f = g := by
  have hsome := ofKey?_key f
  rw [h, ofKey?_key] at hsome
  exact (Option.some.inj hsome).symm

theorem Field.mem_keys_iff {key : String} : key ∈ keys ↔ ∃ f : Field, f.key = key := by
  simp [keys, mem_all]

namespace Person

/-! ### Texts -/

/-- The strict reader takes a value exactly if it is a text. -/
theorem readText_iff {depth : Nat} {s rest rest' : Bytes} {v : Value} {t : String}
    (h : (value depth).run s = .ok (v, rest)) :
    readText s = .ok (t, rest') ↔ v = .string t ∧ rest' = rest := by
  rw [value_run] at h
  unfold readText
  constructor
  · intro ht
    split at ht
    · cases ht
    rename_i b tail hs
    split at ht
    · rename_i hb
      have hdigit : isDigit 0x22 = false := by decide
      simp only [readValue, hs, hb, hdigit, ht] at h
      obtain ⟨rfl, rfl⟩ := Prod.mk.inj (Except.ok.inj h)
      exact ⟨rfl, rfl⟩
    · cases ht
  · rintro ⟨rfl, rfl⟩
    obtain ⟨b, tail, hs, rfl, ht⟩ := readValue_begun h
    simp [hs, ht]

/-! ### Equations of the strict reader -/

/-- The strict reader of the members of an object, step by step. -/
theorem readMembers_eq (first : Bool) (texts : List (Field × String)) (s : Bytes) :
    readMembers first texts s =
      match nextMember first s with
      | .error e => .error e
      | .ok (.finished rest) =>
        match missing? texts with
        | some f => .error (.before (.missingField f.key) rest)
        | none => .ok (texts, rest)
      | .ok (.entry t) =>
        match readString (t.drop 1) with
        | .error e => .error e
        | .ok (key, rest) =>
          match Field.ofKey? key with
          | some f =>
            if (texts.lookup f).isSome then .error (duplicate f rest)
            else
              match readColon rest with
              | .error e => .error e
              | .ok rest =>
                match readText rest with
                | .error e => .error e
                | .ok (text, rest) => readMembers false ((f, text) :: texts) rest
          | none =>
            match readColon rest with
            | .error e => .error e
            | .ok rest =>
              match skipValue rest with
              | .error e => .error e
              | .ok rest => readMembers false texts rest := by
  rw [readMembers]
  split
  · rename_i hn
    simp only [hn]
  · rename_i hn
    cases missing? texts <;> simp only [hn]
  rename_i t hn
  simp only [hn]
  split
  · rename_i hk
    simp only [hk]
  rename_i key rest hk
  simp only [hk]
  cases Field.ofKey? key with
  | some f =>
      dsimp only
      split
      · rfl
      split
      · rename_i hc
        simp only [hc]
      rename_i hc
      simp only [hc]
      split <;> rename_i ht <;> simp only [ht]
  | none =>
      dsimp only
      split
      · rename_i hc
        simp only [hc]
      rename_i hc
      simp only [hc]
      split <;> rename_i hv <;> simp only [hv]

section

variable {first : Bool} {s t r r' rest : Bytes} {f : Field}

/-- At the end of an object all fields must have a text. -/
theorem readMembers_of_finished (hn : nextMember first s = .ok (.finished rest))
    (texts : List (Field × String)) :
    readMembers first texts s =
      match missing? texts with
      | some f => .error (.before (.missingField f.key) rest)
      | none => .ok (texts, rest) := by
  rw [readMembers_eq, hn]

/-- The end of an object gives the texts of the fields, if each has one. -/
theorem readMembers_finished_iff (hn : nextMember first s = .ok (.finished rest))
    {texts texts' : List (Field × String)} {rest' : Bytes} :
    readMembers first texts s = .ok (texts', rest') ↔
      some texts = some texts' ∧ missing? texts' = none ∧ rest' = rest := by
  rw [readMembers_of_finished hn, Option.some.injEq]
  cases hmissing : missing? texts with
  | none =>
      simp only [Except.ok.injEq, Prod.mk.injEq]
      constructor
      · rintro ⟨rfl, rfl⟩
        exact ⟨rfl, hmissing, rfl⟩
      · rintro ⟨rfl, -, rfl⟩
        exact ⟨rfl, rfl⟩
  | some f =>
      refine iff_of_false (by simp) ?_
      rintro ⟨rfl, hnone, -⟩
      rw [hmissing] at hnone
      cases hnone

/-- A member under the key of a field must be the first one, and its value a text. -/
theorem readMembers_of_field (hn : nextMember first s = .ok (.entry t))
    (hkey : readString (t.drop 1) = .ok (f.key, r)) (hcolon : readColon r = .ok r')
    (texts : List (Field × String)) :
    readMembers first texts s =
      if (texts.lookup f).isSome then .error (duplicate f r)
      else
        match readText r' with
        | .error e => .error e
        | .ok (text, rest) => readMembers false ((f, text) :: texts) rest := by
  rw [readMembers_eq, hn]
  simp only [hkey, Field.ofKey?_key, hcolon]

/-- A member under the key of a field is taken exactly if it is the first one and its value holds a
text. -/
theorem readMembers_field_iff {holds : String → Prop} (hn : nextMember first s = .ok (.entry t))
    (hkey : readString (t.drop 1) = .ok (f.key, r)) (hcolon : readColon r = .ok r')
    (htext : ∀ text z, readText r' = .ok (text, z) ↔ holds text ∧ z = rest)
    {texts : List (Field × String)} {x : List (Field × String) × Bytes} :
    readMembers first texts s = .ok x ↔
      ∃ text, holds text ∧ texts.lookup f = none ∧
        readMembers false ((f, text) :: texts) rest = .ok x := by
  rw [readMembers_of_field hn hkey hcolon]
  cases hlookup : texts.lookup f with
  | some text => simp
  | none =>
      rw [if_neg (by simp)]
      cases hread : readText r' with
      | ok y =>
          obtain ⟨text, z⟩ := y
          obtain ⟨hholds, rfl⟩ := (htext text z).1 hread
          constructor
          · intro h
            exact ⟨text, hholds, rfl, h⟩
          · rintro ⟨text', hholds', -, h⟩
            -- there is but one text that the value holds
            cases hread.symm.trans ((htext text' z).2 ⟨hholds', rfl⟩)
            exact h
      | error e =>
          refine iff_of_false (by simp) ?_
          rintro ⟨text, hholds, -⟩
          cases hread.symm.trans ((htext text rest).2 ⟨hholds, rfl⟩)

/-- A member under another key is skipped. -/
theorem readMembers_of_other {key : String} (hn : nextMember first s = .ok (.entry t))
    (hkey : readString (t.drop 1) = .ok (key, r)) (hother : Field.ofKey? key = none)
    (hcolon : readColon r = .ok r') (hskip : skipValue r' = .ok rest)
    (texts : List (Field × String)) :
    readMembers first texts s = readMembers false texts rest := by
  rw [readMembers_eq, hn]
  simp only [hkey, hother, hcolon, hskip]

end

/-! ### Gathering texts -/

/-- What the strict reader makes of some members after the texts of some fields: it stops at a key
that has a text already, and at a value that is no text. -/
def gather? (texts : List (Field × String)) : List (String × Value) → Option (List (Field × String))
  | [] => some texts
  | (key, v) :: ms =>
    match Field.ofKey? key with
    | none => none
    | some f =>
      match v with
      | .string t => if (texts.lookup f).isSome then none else gather? ((f, t) :: texts) ms
      | _ => none

theorem gather?_cons (texts : List (Field × String)) (f : Field) (v : Value)
    (ms : List (String × Value)) :
    gather? texts ((f.key, v) :: ms) =
      match v with
      | .string t => if (texts.lookup f).isSome then none else gather? ((f, t) :: texts) ms
      | _ => none := by
  rw [gather?, Field.ofKey?_key]

/-- **The strict reader goes along with the reader of values**, member by member. -/
theorem readMembers_iff {depth : Nat} {first : Bool} {s rest rest' : Bytes}
    {ms : List (String × Value)} {texts texts' : List (Field × String)}
    (h : EntryRun nextMember (member (value depth)) first s ms rest)
    (hkeys : ∀ m ∈ ms, m.1 ∈ Field.keys) :
    readMembers first texts s = .ok (texts', rest') ↔
      gather? texts ms = some texts' ∧ missing? texts' = none ∧ rest' = rest := by
  induction h generalizing texts with
  | finished hn => exact readMembers_finished_iff hn
  | @entry first s t tail rest m ms hn hm more ih =>
      obtain ⟨r, r', hkey, hcolon, hv⟩ := readMember_eq_ok hm
      obtain ⟨f, hf⟩ := Field.mem_keys_iff.1 (hkeys m List.mem_cons_self)
      obtain ⟨key, v⟩ := m
      obtain rfl : f.key = key := hf
      have hmore : ∀ m ∈ ms, m.1 ∈ Field.keys := fun m hm => hkeys m (List.mem_cons_of_mem _ hm)
      rw [readMembers_field_iff hn hkey hcolon fun _ _ => readText_iff hv, gather?_cons]
      simp only [ih hmore]
      cases texts.lookup f with
      | some text => cases v <;> simp
      | none => cases v <;> simp

/-- Members that are written once each, with the texts of a person, are gathered. -/
theorem gather?_of_nodup {p : Person} {ms : List (String × Value)}
    (hms : ∀ m ∈ ms, ∃ f : Field, m = (f.key, .string (p.text f)))
    (hnodup : (ms.map Prod.fst).Nodup) {texts : List (Field × String)}
    (hfresh : ∀ f : Field, f.key ∈ ms.map Prod.fst → texts.lookup f = none) :
    ∃ texts', gather? texts ms = some texts' ∧ ∀ f : Field,
      texts'.lookup f = if f.key ∈ ms.map Prod.fst then some (p.text f) else texts.lookup f := by
  induction ms generalizing texts with
  | nil => exact ⟨texts, rfl, by simp⟩
  | cons m ms ih =>
      obtain ⟨f, rfl⟩ := hms m List.mem_cons_self
      simp only [List.map_cons, List.nodup_cons] at hnodup
      obtain ⟨hnew, hnodup⟩ := hnodup
      have hlookup : texts.lookup f = none := hfresh f (by simp)
      have hother : ∀ g : Field, g.key ∈ ms.map Prod.fst → (g == f) = false := by
        intro g hg
        refine beq_false_of_ne ?_
        rintro rfl
        exact hnew hg
      have hfresh' : ∀ g : Field, g.key ∈ ms.map Prod.fst →
          ((f, p.text f) :: texts).lookup g = none := by
        intro g hg
        rw [List.lookup_cons, hother g hg]
        exact hfresh g (by simp [hg])
      obtain ⟨texts', hgather, htexts'⟩ :=
        ih (fun m hm => hms m (List.mem_cons_of_mem _ hm)) hnodup hfresh'
      refine ⟨texts', ?_, ?_⟩
      · simp [gather?_cons, hlookup, hgather]
      · intro g
        rw [htexts' g, List.lookup_cons]
        by_cases hg : g.key ∈ ms.map Prod.fst
        · simp [hg]
        · by_cases hgf : g = f
          · simp [hgf, hnew]
          · have hkey : g.key ≠ f.key := fun h => hgf (Field.key_injective h)
            simp [hg, beq_false_of_ne hgf, hkey]

/-- Members that are gathered are written once each. -/
theorem nodup_of_gather? {ms : List (String × Value)} {texts texts' : List (Field × String)}
    (h : gather? texts ms = some texts') :
    (ms.map Prod.fst).Nodup ∧
      ∀ f : Field, (texts.lookup f).isSome = true → f.key ∉ ms.map Prod.fst := by
  induction ms generalizing texts with
  | nil => simp
  | cons m ms ih =>
      obtain ⟨key, v⟩ := m
      unfold gather? at h
      split at h
      · cases h
      rename_i f hf
      have hkey : f.key = key := by simpa using List.find?_some hf
      subst hkey
      split at h
      · rename_i t
        split at h
        · cases h
        rename_i hlookup
        obtain ⟨hnodup, hfresh⟩ := ih h
        have hnew : f.key ∉ ms.map Prod.fst := hfresh f (by simp)
        refine ⟨List.nodup_cons.2 ⟨hnew, hnodup⟩, ?_⟩
        intro g hg
        have hgf : g ≠ f := by
          rintro rfl
          exact hlookup hg
        have hother : g.key ∉ ms.map Prod.fst := by
          refine hfresh g ?_
          rw [List.lookup_cons, beq_false_of_ne hgf]
          exact hg
        have hkey : g.key ≠ f.key := fun h => hgf (Field.key_injective h)
        simpa [hkey] using hother
      · cases h

/-! ### Whole texts -/

theorem missing?_eq_none_iff {texts : List (Field × String)} :
    missing? texts = none ↔ ∀ f : Field, (texts.lookup f).isSome = true := by
  simp [missing?, Field.mem_all, Option.isSome_iff_ne_none]

/-- The strict reader on the text of an object with keys of fields. -/
theorem parse_iff {depth : Nat} {text rest : Bytes} {ms : List (String × Value)} {q : Person}
    (hs : skipBlank text = 0x7b :: rest)
    (h : EntryRun nextMember (member (value depth)) true rest ms [])
    (hkeys : ∀ m ∈ ms, m.1 ∈ Field.keys) :
    parse text = .ok q ↔
      ∃ texts, gather? [] ms = some texts ∧ missing? texts = none ∧ q = ofTexts texts := by
  have hmembers : ∀ texts rest', readMembers true [] rest = .ok (texts, rest') ↔
      gather? [] ms = some texts ∧ missing? texts = none ∧ rest' = [] :=
    fun _ _ => readMembers_iff h hkeys
  simp only [parse, read, hs]
  cases hread : readMembers true [] rest with
  | error e =>
      refine iff_of_false (by simp) ?_
      rintro ⟨texts, hgather, hmissing, -⟩
      cases hread.symm.trans ((hmembers texts []).2 ⟨hgather, hmissing, rfl⟩)
  | ok x =>
      obtain ⟨texts, rest'⟩ := x
      obtain ⟨hgather, hmissing, rfl⟩ := (hmembers texts rest').1 hread
      simp [hgather, hmissing, readEnd, skipBlank, eq_comm]

/-- Members that are written once each, and of which the map has the texts of a person, have these
texts themselves. -/
theorem members_eq_of_nodup {p : Person} {ms : List (String × Value)}
    (hkeys : ∀ m ∈ ms, m.1 ∈ Field.keys)
    (htexts : ∀ f : Field, lookup f.key (memberMap ms) = some (.string (p.text f)))
    (hnodup : (ms.map Prod.fst).Nodup) :
    ∀ m ∈ ms, ∃ f : Field, m = (f.key, .string (p.text f)) := by
  rintro ⟨key, v⟩ hm
  obtain ⟨f, rfl⟩ := Field.mem_keys_iff.1 (hkeys _ hm)
  have hreverse : (ms.reverse.map Prod.fst).Nodup := by
    rw [List.map_reverse]
    exact (List.reverse_perm _).nodup_iff.2 hnodup
  have hlookup := lookup_of_mem hreverse (List.mem_reverse.2 hm)
  rw [← lookup_memberMap, htexts f] at hlookup
  exact ⟨f, by rw [Option.some.inj hlookup]⟩

/-- **The strict reader on the text of a matching object**: it gives the person if each key is
written once, and nothing if a key is written again. -/
theorem parse_of_matches {p : Person} {text : Bytes} {v : Value}
    (hread : Reads (value (maxDepth - 1)) text v) (h : p.Matches v) :
    (∀ key, key ∈ keysOf text ↔ key ∈ Field.keys) ∧
      ((keysOf text).Nodup → parse text = .ok p) ∧
      (¬(keysOf text).Nodup → ∃ e, parse text = .error e) := by
  obtain ⟨members, rfl, hkeys, htexts⟩ := h
  obtain ⟨rest, hs, rfl, hrun⟩ := membersOf_of_reads hread
  rw [keysOf]
  generalize membersOf text = ms at hkeys htexts hrun
  simp only [mem_keys_memberMap] at hkeys
  have hfields : ∀ m ∈ ms, m.1 ∈ Field.keys := fun m hm =>
    (hkeys m.1).1 (List.mem_map_of_mem hm)
  have hparse : ∀ q, parse text = .ok q ↔
      ∃ texts, gather? [] ms = some texts ∧ missing? texts = none ∧ q = ofTexts texts :=
    fun _ => parse_iff hs hrun hfields
  refine ⟨hkeys, ?_, ?_⟩
  · intro hnodup
    obtain ⟨texts, hgather, hlookup⟩ :=
      gather?_of_nodup (members_eq_of_nodup hfields htexts hnodup) hnodup fun _ _ => List.lookup_nil
    have htext : ∀ f : Field, texts.lookup f = some (p.text f) := by
      intro f
      rw [hlookup f, if_pos ((hkeys f.key).2 (Field.mem_keys_iff.2 ⟨f, rfl⟩))]
    refine (hparse p).2 ⟨texts, hgather, missing?_eq_none_iff.2 fun f => by simp [htext], ?_⟩
    exact Person.ext fun f => by simp [ofTexts, htext]
  · intro hrepeated
    cases hresult : parse text with
    | error e => exact ⟨e, rfl⟩
    | ok q =>
        obtain ⟨texts, hgather, -⟩ := (hparse q).1 hresult
        exact (hrepeated (nodup_of_gather? hgather).1).elim

end Person

end Roster
