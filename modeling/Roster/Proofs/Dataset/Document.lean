/-
**Datasets are read back.**

A document is the text of a list of values as one array, with a comma between them in either
layout.  Read as a whole text it gives the values back.  For the values of a dataset that means:
the array has one object for each person, and each of them matches its person.

Main results:

* `Roster.parse_document` — **a document is read back**, value by value;
* `Roster.Person.matches_normal` — the object that a person is written as matches the person;
* `Roster.ofValues_personValues` — **the report on the persons of a template finds nothing wrong**.
-/

import Roster.Proofs.Dataset.Report
import Roster.Proofs.Json.RoundTrip

set_option relaxedAutoImplicit false
set_option autoImplicit false

namespace Roster

open Json

/-! ### Documents -/

/-- The texts of the elements stand behind each other with a comma between them. -/
theorem elementsText_eq (style : Style) (written : Nat) (vs : List Value) :
    elementsText style written vs =
      joined [0x2c] (decide (written = 0)) (vs.map (·.text style)) := by
  induction vs generalizing written with
  | nil => rfl
  | cons v vs ih =>
      by_cases h : written = 0 <;> simp [elementsText, elementPieces, joined, ih, h, Value.text]

/-- **A document is read back**, value by value. -/
theorem parse_document (style : Style) {vs : List Value}
    (h : ∀ v ∈ vs, Readable (maxDepth - 1) v) :
    parse (document style vs) = .ok (.array (vs.map Value.normal)) := by
  have hopen : isBlank 0x5b = false := by decide
  have hitems := foldItems_joined (show ∀ b ∈ ([] : Bytes), isBlank b = true by simp)
    (fun v hv => (h v hv).recovered style) (fun (l : List Value) v => v :: l) [] []
  rw [foldItems_eq] at hitems
  obtain ⟨hvs, hend⟩ := Prod.mk.inj hitems
  rw [List.foldl_flip_cons_eq_append', List.foldl_flip_cons_eq_append', List.append_nil,
    List.append_nil, List.reverse_inj] at hvs
  rw [parse_array_iff]
  refine ⟨_, skipBlank_of_not_isBlank hopen _, ?_, [], ?_, rfl⟩
  · rw [elementsText_eq]
    exact hvs
  · rw [elementsText_eq]
    exact hend

/-! ### Persons -/

/-- A person is written as a readable value. -/
theorem Person.readable_toJson (p : Person) (depth : Nat) : Readable (depth + 1) p.toJson := by
  refine Readable.object fun m hm => ?_
  obtain ⟨f, -, rfl⟩ := List.mem_map.1 hm
  exact Readable.string depth (p.text f.2)

theorem Field.nodup_keys : Field.keys.Nodup := by decide

/-- The keys of a person are those of the fields. -/
theorem Person.keys_members (p : Person) : p.members.map Prod.fst = Field.keys := by
  simp [Person.members_eq, Person.fields, Field.keys, Function.comp_def]

theorem Person.members_normal (p : Person) :
    (p.members.map fun m => (m.1, m.2.normal)) = p.members := by
  simp [Person.members, Value.normal]

/-- An object that ends with the members of a person matches the person, whatever stands under the
keys of fields before them. -/
theorem Person.matches_of_suffix (p : Person) {ms : List (String × Value)}
    (hms : ∀ m ∈ ms, m.1 ∈ Field.keys) : p.Matches (Value.object (ms ++ p.members)).normal := by
  refine ⟨memberMap (ms.map (fun m => (m.1, m.2.normal)) ++ p.members), ?_, fun key => ?_,
    fun f => ?_⟩
  · rw [Value.normal, normalMembers_eq, List.map_append, Person.members_normal]
  · rw [mem_keys_memberMap, List.map_append, List.mem_append, Person.keys_members]
    refine or_iff_right_of_imp fun h => ?_
    obtain ⟨m', hm', rfl⟩ := List.mem_map.1 h
    obtain ⟨m, hm, rfl⟩ := List.mem_map.1 hm'
    exact hms m hm
  · have hmem : (f.key, Value.string (p.text f)) ∈ p.members.reverse := by
      rw [List.mem_reverse, Person.members_eq]
      exact List.mem_map.2 ⟨(f.key, p.text f), List.mem_map.2 ⟨f, Field.mem_all f, rfl⟩, rfl⟩
    have hnodup : (p.members.reverse.map Prod.fst).Nodup := by
      rw [List.map_reverse, Person.keys_members]
      exact (List.reverse_perm _).nodup_iff.2 Field.nodup_keys
    rw [lookup_memberMap, List.reverse_append, lookup_append, lookup_of_mem hnodup hmem,
      Option.some_or]

/-- The object that a person is written as matches the person. -/
theorem Person.matches_normal (p : Person) : p.Matches p.toJson.normal := by
  have h := p.matches_of_suffix (show ∀ m ∈ ([] : List (String × Value)), m.1 ∈ Field.keys by simp)
  rw [List.nil_append] at h
  exact h

/-! ### Datasets -/

/-- The values that a dataset is read back as. -/
def personValues (t : Template) (count : Nat) : List Value :=
  (personsFrom t 0 count).map Value.normal

@[simp] theorem length_personValues (t : Template) (count : Nat) :
    (personValues t count).length = count := by
  simp [personValues, personsFrom]

/-- A dataset is read back as one array. -/
theorem parse_dataset (style : Style) (t : Template) (count : Nat) :
    parse (dataset style t count) = .ok (.array (personValues t count)) := by
  refine parse_document style fun v hv => ?_
  obtain ⟨i, -, rfl⟩ := List.mem_map.1 hv
  exact Person.readable_toJson _ 125

/-- Each value of a dataset matches the person of its position, if there are so many persons. -/
theorem personValues_matches {t : Template} {count : Nat} (hcount : count ≤ personCount) (i : Nat)
    (h : i < (personValues t count).length) :
    ∃ p, Person.ofIndex? t i = .ok p ∧ p.Matches (personValues t count)[i] := by
  have hi : i < count := by simpa using h
  refine ⟨Person.ofIndex t i, Person.ofIndex?_of_lt t (Nat.lt_of_lt_of_le hi hcount), ?_⟩
  have hget : (personValues t count)[i] = (Person.ofIndex t i).toJson.normal := by
    simp [personValues, personsFrom]
  rw [hget]
  exact Person.matches_normal _

/-- **The report on the persons of a template finds nothing wrong.** -/
theorem ofValues_personValues {t : Template} {count : Nat} (hcount : count ≤ personCount)
    (expected : Nat) :
    Report.ofValues t expected (personValues t count) =
      { expected, found := count, matched := count } := by
  have hnil : mismatches t 0 (personValues t count) = [] := by
    rw [mismatches_eq_nil_iff]
    intro i h
    rw [Nat.zero_add, differencesAt_eq_nil_iff]
    exact personValues_matches hcount i h
  simp [Report.ofValues, hnil]

end Roster
