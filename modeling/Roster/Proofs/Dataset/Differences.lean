/-
**The differences of one value.**

The verifier compares each value with the person of its position.  What it finds is a list of
differences, and the list is exact: each key under which the value has not what the person has is
there once and no other is, the keys of fields in the order of the fields and the remaining keys in
the order of their bytes.  A difference shows what was found, and says that nothing was found in a way
that no value is written in.

The objects meant here are maps: each key once, in the order of the keys, which is what the reader of
values gives (`Roster.Json.sorted_of_parse`).

Main definitions:

* `Roster.Person.Lacks` — under the key of a field an object has not the text of a person;
* `Roster.Difference.Shows` — a difference shows what an object has under the key.

Main results:

* `Roster.Person.matches_iff_get?` — a value matches a person if it is the person's object as a map;
* `Roster.compact_ne_missing` — no value is written as what is said of an absent one;
* `Roster.differences_exact` — **the differences of a value, exactly**.
-/

import Roster.Proofs.Dataset.Document
import Roster.Proofs.Json.Sorted
import Roster.Proofs.Json.Written
import Roster.Proofs.Person.Reader

set_option relaxedAutoImplicit false
set_option autoImplicit false

namespace Roster

open Json

/-! ### Objects as maps -/

theorem Person.lookup_members (p : Person) (f : Field) :
    lookup f.key p.members = some (.string (p.text f)) := by
  have hnodup : (p.members.map Prod.fst).Nodup := by
    rw [p.keys_members]
    exact Field.nodup_keys
  have hmem : (f.key, Value.string (p.text f)) ∈ p.members := by
    rw [p.members_eq]
    exact List.mem_map.2 ⟨(f.key, p.text f), List.mem_map.2 ⟨f, Field.mem_all f, rfl⟩, rfl⟩
  exact lookup_of_mem hnodup hmem

/-- A value matches a person if it is an object that has under every key what the object of the person
has there. -/
theorem Person.matches_iff_get? (p : Person) (v : Value) :
    p.Matches v ↔ (∃ ms, v = .object ms) ∧ ∀ key, v.get? key = p.toJson.get? key := by
  constructor
  · rintro ⟨ms, rfl, hkeys, htexts⟩
    refine ⟨⟨ms, rfl⟩, fun key => ?_⟩
    show lookup key ms = lookup key p.members
    by_cases hkey : key ∈ Field.keys
    · obtain ⟨f, rfl⟩ := Field.mem_keys_iff.1 hkey
      rw [htexts f, p.lookup_members f]
    · have hnone : ∀ {ms : List (String × Value)}, key ∉ ms.map Prod.fst → lookup key ms = none := by
        intro ms h
        rw [mem_keys_iff, Option.not_isSome_iff_eq_none] at h
        exact h
      rw [hnone (mt (hkeys key).1 hkey), hnone (by rw [p.keys_members]; exact hkey)]
  · rintro ⟨⟨ms, rfl⟩, hget⟩
    have hlookup : ∀ key, lookup key ms = lookup key p.members := hget
    refine ⟨ms, rfl, fun key => ?_, fun f => ?_⟩
    · rw [mem_keys_iff, hlookup, ← mem_keys_iff, p.keys_members]
    · rw [hlookup, p.lookup_members f]

/-! ### What is found -/

/-- No value begins with an angle bracket. -/
theorem head?_ne_of_derives {d : Datum} {w : Bytes} (h : Derives (.value d) w) :
    w.head? ≠ some 0x3c := by
  cases h with
  | null | truth | falsity | emptyArray | array | emptyObject | object => simp
  | number h =>
      obtain ⟨b, rest, rfl, hb | rfl⟩ := h.head
      · simpa using ne_of_isDigit hb (by decide)
      · simp
  | string h =>
      cases h
      simp

/-- No value is written as what is said of an absent one. -/
theorem compact_ne_missing (v : Value) : v.compact ≠ "<missing>" := by
  intro h
  have hhead := head?_ne_of_derives (v.derives .compact)
  rw [← v.utf8_compact, h] at hhead
  exact absurd (show (utf8 "<missing>").head? = some 0x3c by decide) hhead

/-- A difference shows what an object has under the key: the compact text of the value, or that there
is none. -/
def Difference.Shows (d : Difference) (ms : List (String × Value)) : Prop :=
  (lookup d.field ms = none ∧ d.actual = "<missing>") ∨
    ∃ v, lookup d.field ms = some v ∧ utf8 d.actual = v.text .compact ∧ d.actual ≠ "<missing>"

theorem Difference.shows_compact {key expected : String} {v : Value} {ms : List (String × Value)}
    (h : lookup key ms = some v) : Difference.Shows ⟨key, expected, v.compact⟩ ms :=
  .inr ⟨v, h, v.utf8_compact, compact_ne_missing v⟩

/-! ### The keys of fields -/

/-- A field that differs is reported under its key, with the text that was expected. -/
theorem fieldDifference?_eq_some {key expected : String} {ms : List (String × Value)}
    {d : Difference} (h : fieldDifference? key expected ms = some d) :
    d.field = key ∧ d.expected = expected ∧ d.Shows ms := by
  unfold fieldDifference? at h
  split at h
  · rename_i hnone
    obtain rfl := Option.some.inj h
    exact ⟨rfl, rfl, .inl ⟨hnone, rfl⟩⟩
  · rename_i s hsome
    split at h
    · cases h
    · obtain rfl := Option.some.inj h
      exact ⟨rfl, rfl, Difference.shows_compact hsome⟩
  · rename_i v _ hsome
    obtain rfl := Option.some.inj h
    exact ⟨rfl, rfl, Difference.shows_compact hsome⟩

/-- Under the key of a field an object has not the text of a person: the key is absent, or it has
another value. -/
def Person.Lacks (p : Person) (ms : List (String × Value)) (f : Field) : Prop :=
  lookup f.key ms ≠ some (.string (p.text f))

/-- The differences in some fields come in the order of the fields, one for each that differs. -/
theorem fields_filterMap (p : Person) (ms : List (String × Value)) (fs : List Field) :
    ((fs.map fun f => (f.key, p.text f)).filterMap fun f => fieldDifference? f.1 f.2 ms).map
        Difference.field =
      (fs.filter fun f => (fieldDifference? f.key (p.text f) ms).isSome).map Field.key := by
  induction fs with
  | nil => rfl
  | cons f fs ih =>
      rw [List.map_cons, List.filterMap_cons, List.filter_cons]
      cases h : fieldDifference? f.key (p.text f) ms with
      | none => exact ih
      | some d =>
          simp only [List.map_cons, Option.isSome_some, if_true, (fieldDifference?_eq_some h).1, ih]

theorem isSome_fieldDifference?_iff (p : Person) (ms : List (String × Value)) (f : Field) :
    (fieldDifference? f.key (p.text f) ms).isSome = true ↔ p.Lacks ms f := by
  rw [Person.Lacks, ne_eq, ← fieldDifference?_eq_none_iff, Option.isSome_iff_ne_none]

/-! ### The other keys -/

theorem fields_extraDifferences (ms : List (String × Value)) :
    (extraDifferences ms).map Difference.field =
      (ms.map Prod.fst).filter fun key => !Field.keys.contains key := by
  rw [extraDifferences, List.map_map, List.filter_map]
  rfl

theorem mem_fields_extraDifferences {ms : List (String × Value)} {key : String} :
    key ∈ (extraDifferences ms).map Difference.field ↔
      (∃ v, lookup key ms = some v) ∧ key ∉ Field.keys := by
  rw [fields_extraDifferences, List.mem_filter, mem_keys_iff, Option.isSome_iff_exists]
  simp

/-- The other keys come in the order of their bytes. -/
theorem pairwise_fields_extraDifferences {ms : List (String × Value)} (h : SortedKeys ms) :
    ((extraDifferences ms).map Difference.field).Pairwise fun a b => utf8 a < utf8 b := by
  rw [fields_extraDifferences]
  exact (List.Pairwise.filter _ h).imp utf8_lt_iff.2

/-! ### All differences -/

/-- A difference belongs to a field and shows its text, or to a key that no field has. -/
theorem shows_of_mem_differences {p : Person} {ms : List (String × Value)} (hkeys : SortedKeys ms)
    {d : Difference} (hd : d ∈ differences p (.object ms)) :
    ((∃ f : Field, d.field = f.key ∧ d.expected = p.text f) ∨
      d.field ∉ Field.keys ∧ d.expected = "<absent>") ∧ d.Shows ms := by
  rcases List.mem_append.1 hd with hfield | hextra
  · obtain ⟨x, hx, hdiff⟩ := List.mem_filterMap.1 hfield
    obtain ⟨f, -, rfl⟩ := List.mem_map.1 hx
    obtain ⟨hkey, hexpected, hshows⟩ := fieldDifference?_eq_some hdiff
    exact ⟨.inl ⟨f, hkey, hexpected⟩, hshows⟩
  · obtain ⟨m, hm, rfl⟩ := List.mem_map.1 hextra
    obtain ⟨hmem, hno⟩ := List.mem_filter.1 hm
    exact ⟨.inr ⟨by simpa using hno, rfl⟩,
      Difference.shows_compact (lookup_of_mem hkeys.nodup hmem)⟩

/-- **The differences of a value, exactly.**  There is none if the value is the object of the person as
a map; a value that is no object has one, which names no field.  An object has a difference for each
field whose text it lacks, in the order of the fields, and then one for each of its keys that no field
has, in the order of the bytes of the keys; no key is named twice, and each difference shows what the
object has under its key. -/
theorem differences_exact (p : Person) {v : Value} (hv : Sorted v) :
    (differences p v = [] ↔ (∃ ms, v = .object ms) ∧ ∀ key, v.get? key = p.toJson.get? key) ∧
      ((∀ ms, v ≠ .object ms) → ∃ actual, differences p v = [⟨"", "object", actual⟩] ∧
        utf8 actual = v.text .compact) ∧
      ∀ ms, v = .object ms →
        (∃ known extra, (differences p v).map Difference.field = known ++ extra ∧
          known.Sublist Field.keys ∧ (∀ f : Field, f.key ∈ known ↔ p.Lacks ms f) ∧
          (extra.Pairwise fun a b => utf8 a < utf8 b) ∧
          ∀ key, key ∈ extra ↔ (∃ w, lookup key ms = some w) ∧ key ∉ Field.keys) ∧
        ((differences p v).map Difference.field).Nodup ∧
        ∀ d ∈ differences p v,
          ((∃ f : Field, d.field = f.key ∧ d.expected = p.text f) ∨
            d.field ∉ Field.keys ∧ d.expected = "<absent>") ∧ d.Shows ms := by
  refine ⟨(differences_eq_nil_iff p v).trans (p.matches_iff_get? v), ?_, ?_⟩
  · intro hno
    cases v with
    | object ms => exact absurd rfl (hno ms)
    | null | bool | number | string | array => exact ⟨_, rfl, Value.utf8_compact _⟩
  · rintro ms rfl
    have hkeys : SortedKeys ms := by
      cases hv with
      | object hkeys _ => exact hkeys
    have hfields : (differences p (.object ms)).map Difference.field =
        (Field.all.filter fun f => (fieldDifference? f.key (p.text f) ms).isSome).map Field.key ++
          (extraDifferences ms).map Difference.field := by
      rw [differences, List.map_append, Person.fields, fields_filterMap]
    have hknown := List.Sublist.map Field.key (List.filter_sublist (l := Field.all)
      (p := fun f => (fieldDifference? f.key (p.text f) ms).isSome))
    have hextra := pairwise_fields_extraDifferences hkeys
    refine ⟨⟨_, _, hfields, hknown, fun f => ?_, hextra, fun key => mem_fields_extraDifferences⟩, ?_,
      fun d hd => shows_of_mem_differences hkeys hd⟩
    · rw [← isSome_fieldDifference?_iff, List.mem_map]
      constructor
      · rintro ⟨g, hg, hkey⟩
        obtain rfl := Field.key_injective hkey
        exact (List.mem_filter.1 hg).2
      · intro hlacks
        exact ⟨f, List.mem_filter.2 ⟨Field.mem_all f, hlacks⟩, rfl⟩
    · rw [hfields, List.nodup_append]
      refine ⟨hknown.nodup Field.nodup_keys, ?_, ?_⟩
      · refine hextra.imp ?_
        rintro a b hlt rfl
        exact List.lt_irrefl _ hlt
      · rintro a ha b hb rfl
        exact (mem_fields_extraDifferences.1 hb).2 (hknown.subset ha)

/-- An object with another name than the person, with a key that no field has and without all others
but one.  All keys but that one are named, and what is there is shown: a name that is no text, no
address, and what is under the other key. -/
theorem differences_exact_altered :
    let ms : List (String × Value) :=
      [("@id", .string "obj0"), ("name", .null), ("z", .bool true)]
    let ds := differences (Person.ofIndex {} 0) (.object ms)
    ds.map Difference.field = Field.keys.erase "@id" ++ ["z"] ∧
      ds.take 2 = [⟨"name", "person 0", "null"⟩, ⟨"address", "oslo", "<missing>"⟩] ∧
      ds.getLast? = some ⟨"z", "<absent>", "true"⟩ ∧
      (ds.map Difference.field).Nodup ∧ ∀ d ∈ ds, d.Shows ms := by
  intro ms ds
  have hsorted : Sorted (.object ms) := by
    refine .object (show (["@id", "name", "z"] : List String).Pairwise (· < ·) by decide) ?_
    simp only [ms, List.forall_mem_cons]
    exact ⟨.string _, .null, .bool _, fun _ hm => nomatch hm⟩
  obtain ⟨-, hnodup, hshows⟩ := (differences_exact (Person.ofIndex {} 0) hsorted).2.2 _ rfl
  exact ⟨by decide +kernel, by decide +kernel, by decide +kernel, hnodup,
    fun d hd => (hshows d hd).2⟩

end Roster
