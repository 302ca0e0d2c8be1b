/-
**What an accepted element says.**

A file that the verifier accepts has an object for each person, and no key in it that is not that of
a field.  But an object is compared as it is read: the last member of each key counts, and members
before it under the same key are neither compared nor counted.  The strict reader of persons refuses
such an object.  So the text of an accepted element is that of its person as far as no key is
written again, which the verifier does not find out.

Main results:

* `Roster.elements_document` — the elements of a document are the texts that were written;
* `Roster.Person.parse_text` — the text of a person is read back;
* `Roster.verify_accepts_elements` — **the text of an accepted element has all keys and no others,
  and it is read as the person of its position exactly if it has no key twice**;
* `Roster.verify_preceded`, `Roster.verify_accepts_repeated_key` — members that are written before
  those of a person are not noticed.
-/

import Roster.Proofs.Dataset.Verification
import Roster.Proofs.Person.Reader

set_option relaxedAutoImplicit false
set_option autoImplicit false

namespace Roster

open Json

/-! ### Documents -/

/-- The elements of a document are the texts that were written, with their values. -/
theorem elements_document (style : Style) {vs : List Value}
    (h : ∀ v ∈ vs, Readable (maxDepth - 1) v) :
    elements (document style vs) = vs.map fun v => (v.text style, v.normal) := by
  have hloop := foldEntries_joined nextItem_length
    (separated_items (show ∀ b ∈ ([] : Bytes), isBlank b = true by simp))
    (value (maxDepth - 1)).withText (fun l x => x :: l)
    (vs.map fun v => (v.text style, (v.text style, v.normal)))
    (fun x hx => by
      obtain ⟨v, hv, rfl⟩ := List.mem_map.1 hx
      exact ⟨((h v hv).recovered style).1, ((h v hv).recovered style).2.withText⟩) true [] []
  have hbracket : isBlank 0x5b = false := by decide
  rw [elements, document, skipBlank_of_not_isBlank hbracket, elementsText_eq]
  show (items _ _).1 = _
  rw [items, entries]
  simp only [List.map_map, Function.comp_def] at hloop
  simp [hloop, Function.comp_def]

theorem Person.readable_members (p : Person) (depth : Nat) :
    ∀ m ∈ p.members, Readable depth m.2 := by
  intro m hm
  obtain ⟨f, -, rfl⟩ := List.mem_map.1 hm
  exact .string depth (p.text f.2)

/-- The text of a person has each key once. -/
theorem Person.keysOf_text (p : Person) (style : Style) :
    keysOf (p.toJson.text style) = Field.keys := by
  rw [Person.toJson, Json.keysOf_text (p.readable_members _), Person.keys_members]

/-- The text of a person is read back by the strict reader. -/
theorem Person.parse_text (p : Person) (style : Style) : parse (p.toJson.text style) = .ok p := by
  have hread := (p.readable_toJson 125).reads style
  refine (parse_of_matches hread p.matches_normal).2.1 ?_
  rw [p.keysOf_text]
  exact Field.nodup_keys

/-! ### Accepted files -/

/-- **The text of an accepted element has all keys and no others, and it is read as the person of
its position exactly if it has no key twice.** -/
theorem verify_accepts_elements {t : Template} {path : Path} {expected : Nat} {w : World}
    {content : ByteArray} {r : Report} (h : w.store.content path = .ok content)
    (hr : ((verify t path expected : StateM World _).run w).1 = .ok r)
    (hsuccess : r.isSuccess = true) :
    (elements content.data.toList).length = expected ∧
      ∀ i text v, (elements content.data.toList)[i]? = some (text, v) →
        (∀ key, key ∈ keysOf text ↔ key ∈ Field.keys) ∧
        ((keysOf text).Nodup → Person.parse text = .ok (Person.ofIndex t i)) ∧
        (¬(keysOf text).Nodup → ∃ e, Person.parse text = .error e) := by
  obtain ⟨vs, hvs, rfl⟩ := (verify_eq_ok_iff h).1 hr
  obtain ⟨hvalues, hreads⟩ := elements_of_parse hvs
  obtain ⟨hlength, hmatches⟩ := (Report.isSuccess_ofValues t expected vs).1 hsuccess
  refine ⟨by rw [← hlength, ← hvalues, List.length_map], ?_⟩
  intro i text v hi
  have hv : vs[i]? = some v := by rw [← hvalues, List.getElem?_map, hi, Option.map_some]
  obtain ⟨hlt, hget⟩ := List.getElem?_eq_some_iff.1 hv
  obtain ⟨p, hp, hmatch⟩ := hmatches i hlt
  obtain rfl := Person.eq_ofIndex hp
  rw [hget] at hmatch
  exact Person.parse_of_matches (hreads _ (List.mem_of_getElem? hi)) hmatch

/-- Two persons are accepted, and each of their texts is read as a person. -/
theorem verify_accepts_elements_two :
    ∃ x y, elements (dataset .spaced {} 2) = [x, y] ∧
      Person.parse x.1 = .ok (Person.ofIndex {} 0) ∧
      Person.parse y.1 = .ok (Person.ofIndex {} 1) := by
  have hr := verify_dataset .spaced {} (show 2 ≤ personCount by decide) 2
  have hlaw := (verify_accepts_elements (World.content_ofFile _) hr (by decide)).2
  rw [List.toList_data_toByteArray] at hlaw
  have helements : elements (dataset .spaced {} 2) =
      [0, 1].map fun i => ((Person.ofIndex {} i).toJson.text .spaced,
        (Person.ofIndex {} i).toJson.normal) := by
    refine (elements_document .spaced ?_).trans rfl
    intro v hv
    obtain ⟨i, -, rfl⟩ := List.mem_map.1 hv
    exact Person.readable_toJson _ 125
  have hnodup : ∀ i, (keysOf ((Person.ofIndex {} i).toJson.text .spaced)).Nodup := by
    intro i
    rw [Person.keysOf_text]
    exact Field.nodup_keys
  rw [helements] at hlaw ⊢
  exact ⟨_, _, rfl, (hlaw 0 _ _ rfl).2.1 (hnodup 0), (hlaw 1 _ _ rfl).2.1 (hnodup 1)⟩

/-! ### Keys that are written again -/

/-- A person as an object with some other members before its own. -/
def Person.preceded (p : Person) (before : List (String × Value)) : Value :=
  .object (before ++ p.members)

section

variable {before : List (String × Value)} (p : Person)

theorem Person.readable_preceded_members (h : ∀ m ∈ before, Readable (maxDepth - 2) m.2) :
    ∀ m ∈ before ++ p.members, Readable (maxDepth - 2) m.2 :=
  List.forall_mem_append.2 ⟨h, p.readable_members _⟩

theorem Person.readable_preceded (h : ∀ m ∈ before, Readable (maxDepth - 2) m.2) :
    Readable (maxDepth - 1) (p.preceded before) :=
  .object (p.readable_preceded_members h)

theorem Person.keysOf_preceded (h : ∀ m ∈ before, Readable (maxDepth - 2) m.2) (style : Style) :
    keysOf ((p.preceded before).text style) = before.map Prod.fst ++ Field.keys := by
  rw [preceded, Json.keysOf_text (p.readable_preceded_members h), List.map_append, p.keys_members]

/-- The strict reader refuses a person with a key of its own before its members. -/
theorem Person.parse_preceded (hne : before ≠ []) (hkeys : ∀ m ∈ before, m.1 ∈ Field.keys)
    (hreadable : ∀ m ∈ before, Readable (maxDepth - 2) m.2) (style : Style) :
    ∃ e, parse ((p.preceded before).text style) = .error e := by
  refine (parse_of_matches ((p.readable_preceded hreadable).reads style)
    (p.matches_of_suffix hkeys)).2.2 ?_
  rw [p.keysOf_preceded hreadable, List.nodup_append]
  rintro ⟨-, -, hdisjoint⟩
  obtain ⟨m, hm⟩ := List.exists_mem_of_ne_nil before hne
  exact hdisjoint m.1 (List.mem_map_of_mem hm) m.1 (hkeys m hm) rfl

end

/-- **What stands under the keys of fields before the members of the persons is not noticed**: the
document is accepted as one with the persons. -/
theorem verify_preceded (t : Template) (style : Style) {count : Nat} (hcount : count ≤ personCount)
    {before : Nat → List (String × Value)} (hkeys : ∀ i, ∀ m ∈ before i, m.1 ∈ Field.keys)
    (hreadable : ∀ i, ∀ m ∈ before i, Readable (maxDepth - 2) m.2) :
    ∃ r, ((verify t ⟨"data.json"⟩ count : StateM World _).run
        (.ofFile (document style ((List.range count).map fun i =>
          (Person.ofIndex t i).preceded (before i))))).1 = .ok r ∧ r.isSuccess = true := by
  have hvalues : ∀ v ∈ (List.range count).map fun i => (Person.ofIndex t i).preceded (before i),
      Readable (maxDepth - 1) v := by
    intro v hv
    obtain ⟨i, -, rfl⟩ := List.mem_map.1 hv
    exact Person.readable_preceded _ (hreadable i)
  refine ⟨_, verify_document style hvalues t count, ?_⟩
  refine (Report.isSuccess_ofValues t count _).2 ⟨by simp, ?_⟩
  intro i hi
  have hlt : i < count := by simpa using hi
  refine ⟨_, Person.ofIndex?_of_lt t (Nat.lt_of_lt_of_le hlt hcount), ?_⟩
  simp only [List.getElem_map, List.getElem_range]
  exact Person.matches_of_suffix _ (hkeys i)

/-- The first person with another identifier before its own is accepted as the first person,
although its text has a key twice and the strict reader refuses it. -/
theorem verify_accepts_repeated_key :
    let v := (Person.ofIndex {} 0).preceded [("@id", .string "bogus")]
    (∃ r, ((verify {} ⟨"data.json"⟩ 1 : StateM World _).run
        (.ofFile (document .compact [v]))).1 = .ok r ∧ r.isSuccess = true) ∧
      elements (document .compact [v]) = [(v.text .compact, v.normal)] ∧
      (keysOf (v.text .compact)).count "@id" = 2 ∧
      ∃ e, Person.parse (v.text .compact) = .error e := by
  intro v
  have hkeys : ∀ m ∈ [("@id", Value.string "bogus")], m.1 ∈ Field.keys := by decide
  have hreadable : ∀ m ∈ [("@id", Value.string "bogus")], Readable (maxDepth - 2) m.2 := by
    intro m hm
    rw [List.mem_singleton.1 hm]
    exact .string _ "bogus"
  have haccepted := verify_preceded {} .compact (show 1 ≤ personCount by decide)
    (fun _ => hkeys) (fun _ => hreadable)
  refine ⟨haccepted, ?_, ?_, ?_⟩
  · refine elements_document .compact fun u hu => ?_
    rw [List.mem_singleton.1 hu]
    exact Person.readable_preceded _ hreadable
  · rw [Person.keysOf_preceded _ hreadable]
    decide
  · exact Person.parse_preceded _ (by simp) hkeys hreadable .compact

end Roster
