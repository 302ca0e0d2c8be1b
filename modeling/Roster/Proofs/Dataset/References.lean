/-
**The references of a dataset.**

Every person refers to the five persons that follow it.  In a dataset the last persons have no five
that follow, so some of their references lead nowhere: they dangle.  No two indices have the same
digits, so a reference leads to one person at most, and how many of them dangle can be counted person
by person, from the first on, by how many persons follow.

Main definitions:

* `Roster.Person.handle` — how other persons refer to a person;
* `Roster.dangling` — the references to friends that lead to none of some persons;
* `Roster.Linked` — how the persons of a dataset refer to one another;
* `Roster.personsOf` — the persons that the elements of a text are read as.

Main results:

* `Roster.Person.friends_eq_range` — the friends are the persons that follow;
* `Roster.countP_friends_range` — the references that go beyond the last person, by induction on the
  persons;
* `Roster.linked_range` — **the first persons are linked**;
* `Roster.dataset_references` — the same of the persons that a dataset is read as.
-/

import Mathlib.Data.List.Nodup
import Roster.Proofs.Dataset.Elements
import Roster.Proofs.Dataset.Populate
import Roster.Proofs.Dataset.Rearrangement
import Roster.Proofs.Person.Batch

set_option relaxedAutoImplicit false
set_option autoImplicit false

namespace Roster

open Json

/-! ### References -/

/-- How other persons refer to a person: its identifier between angle brackets. -/
def Person.handle (p : Person) : String := "<" ++ p.text .id ++ ">"

theorem reference_inj {i j : Nat} : reference i = reference j ↔ i = j := by
  simp only [reference, identifier, String.append_right_inj, String.append_left_inj,
    Nat.toString_eq_repr, repr_inj]

namespace Person

variable {t : Template} {start count : Nat}

theorem handle_ofIndex (i : Nat) : (ofIndex t i).handle = reference i := rfl

/-- The friends of a person are the persons that follow it. -/
theorem friends_eq_range (i : Nat) :
    (ofIndex t i).friends = (List.range 5).map fun k => reference (i + (k + 1)) := rfl

theorem getElem_range {i : Nat} (hi : i < (range t start count).length) :
    (range t start count)[i] = ofIndex t (start + i) := by
  simp only [range, List.getElem_map, List.getElem_range]

/-- A reference leads to one of the first persons exactly if its index is one of theirs. -/
theorem reference_mem_handles_iff {m : Nat} :
    reference m ∈ (range t 0 count).map handle ↔ m < count := by
  simp only [range, List.map_map, List.mem_map, List.mem_range, Function.comp_apply,
    handle_ofIndex, Nat.zero_add, reference_inj]
  constructor
  · rintro ⟨i, hi, rfl⟩
    exact hi
  · intro hm
    exact ⟨m, hm, rfl⟩

/-- The first persons have identifiers of their own. -/
theorem nodup_identifiers : ((range t 0 count).map fun p => p.text .id).Nodup := by
  rw [range, List.map_map]
  refine List.Nodup.map_on (fun i _ j _ hij => ?_) List.nodup_range
  have hindex := (text_ofIndex_eq_iff (f := .id)).1 hij rfl
  rwa [Nat.zero_add, Nat.zero_add] at hindex

end Person

/-! ### References that lead nowhere -/

/-- The references to friends that lead to none of the persons, each as often as it is made. -/
def dangling (ps : List Person) : List String :=
  (ps.flatMap Person.friends).filter fun r => decide (r ∉ ps.map Person.handle)

/-- Of the numbers below `n` those from `m` on are counted. -/
theorem countP_le_range (m n : Nat) :
    (List.range n).countP (fun k => decide (m ≤ k)) = n - m := by
  induction n with
  | zero => simp
  | succ n ih =>
      rw [List.range_succ, List.countP_append, ih, List.countP_singleton]
      by_cases h : m ≤ n
      · simp only [h, decide_true, if_true]
        omega
      · simp only [h, decide_false, Bool.false_eq_true, if_false]
        omega

section

variable {t : Template} {beyond : String → Bool} {stop : Nat}

/-- Of the five references of a person those go beyond the last one that have nobody to follow. -/
theorem countP_friends (hbeyond : ∀ m, beyond (reference m) = decide (stop ≤ m)) (i : Nat) :
    (Person.ofIndex t i).friends.countP beyond = 5 - (stop - (i + 1)) := by
  rw [Person.friends_eq_range, List.countP_map, ← countP_le_range]
  refine List.countP_congr fun k _ => ?_
  rw [Function.comp_apply, hbeyond, decide_eq_true_eq, decide_eq_true_eq]
  omega

/-- **The references of persons in a row that go beyond the last of them**: one for the fifth person
from the end, two for the fourth, and so on. -/
theorem countP_friends_range (hbeyond : ∀ m, beyond (reference m) = decide (stop ≤ m))
    (start count : Nat) (hstop : start + count = stop) :
    ((Person.range t start count).flatMap Person.friends).countP beyond =
      min 1 count + min 2 count + min 3 count + min 4 count + min 5 count := by
  induction count generalizing start with
  | zero => simp
  | succ count ih =>
      -- the first person is followed by `count` others, which are counted for themselves
      rw [Person.range_succ, List.flatMap_cons, List.countP_append, countP_friends hbeyond,
        ih (start + 1) (by omega)]
      omega

end

/-! ### Persons that refer to one another -/

/-- How persons refer to one another. -/
structure Linked (ps : List Person) : Prop where
  /-- The identifiers are all different. -/
  distinct : (ps.map fun p => p.text .id).Nodup
  /-- A friend is the person that follows at its distance, and no other. -/
  friend : ∀ i j (hi : i < ps.length) (hj : j < ps.length) (k : Fin 5),
    ps[i].text (.friend k) = ps[j].handle ↔ j = i + (k.val + 1)
  /-- A reference leads to a person exactly if so many follow. -/
  leads : ∀ i (hi : i < ps.length) (k : Fin 5),
    (∃ j, ∃ hj : j < ps.length, ps[i].text (.friend k) = ps[j].handle) ↔
      i + (k.val + 1) < ps.length
  /-- Of the persons at the end some references dangle. -/
  length_dangling : (dangling ps).length =
    min 1 ps.length + min 2 ps.length + min 3 ps.length + min 4 ps.length + min 5 ps.length
  /-- The other fields that look like references lead nowhere. -/
  others : ∀ p ∈ ps, ∀ q ∈ ps,
    p.text .company ≠ q.handle ∧ p.text .owner ≠ q.handle ∧ p.text .department ≠ q.handle

/-- A text that does not begin as a reference does is none. -/
theorem ne_reference {s : String} (h : s.toList.take 3 ≠ ['<', 'o', 'b']) (i : Nat) :
    s ≠ reference i := by
  rintro rfl
  simp [reference, identifier] at h

/-- **The first persons are linked.** -/
theorem linked_range (count : Nat) : Linked (Person.range {} 0 count) where
  distinct := Person.nodup_identifiers
  friend := by
    intro i j hi hj k
    rw [Person.getElem_range, Person.getElem_range, Person.handle_ofIndex, Nat.zero_add,
      Nat.zero_add, eq_comm (a := j)]
    exact reference_inj
  leads := by
    intro i hi k
    simp only [Person.getElem_range, Person.handle_ofIndex, Nat.zero_add, Person.length_range]
    show (∃ j, ∃ _ : j < count, reference (i + (k.val + 1)) = reference j) ↔ _
    simp only [reference_inj, exists_prop, exists_eq_right']
  length_dangling := by
    rw [dangling, ← List.countP_eq_length_filter, Person.length_range]
    refine countP_friends_range (fun m => ?_) 0 count (Nat.zero_add count)
    simp only [Person.reference_mem_handles_iff, Nat.not_lt]
  others := by
    intro p hp q hq
    obtain ⟨i, -, rfl⟩ := List.mem_map.1 hp
    obtain ⟨j, -, rfl⟩ := List.mem_map.1 hq
    rw [Person.handle_ofIndex]
    refine ⟨ne_reference ?_ _, ne_reference ?_ _, ne_reference ?_ _⟩ <;> simp [Person.ofIndex]

/-! ### Datasets -/

/-- The persons that the elements of a text are read as. -/
def personsOf (s : Bytes) : List (Except Fault Person) :=
  (elements s).map fun x => Person.parse x.1

/-- A dataset is read as its persons. -/
theorem personsOf_dataset (style : Style) (t : Template) (count : Nat) :
    personsOf (dataset style t count) = (Person.range t 0 count).map .ok := by
  have hreadable : ∀ v ∈ personsFrom t 0 count, Readable (maxDepth - 1) v := by
    intro v hv
    obtain ⟨i, -, rfl⟩ := List.mem_map.1 hv
    exact Person.readable_toJson _ 125
  rw [personsOf, dataset, elements_document style hreadable, List.map_map, personsFrom,
    List.map_map, Person.range, List.map_map]
  exact List.map_congr_left fun i _ => Person.parse_text _ style

/-- **The references of a dataset.**  A dataset of persons that exist is read, in either layout and
from any file that it was written to, as so many persons, each of them the one of its position.  Their
identifiers are all different; the friends of a person are those that follow it, as far as they are in
the dataset; the references of the last persons dangle, fifteen of them if there are five persons or
more; and no other field leads to a person. -/
theorem dataset_references {count : Nat} (hcount : count ≤ personCount) :
    ∃ ps : List Person, ps.length = count ∧
      (∀ i (hi : i < ps.length), Person.ofIndex? {} i = .ok ps[i]) ∧
      (∀ style, personsOf (dataset style {} count) = ps.map .ok) ∧
      (∀ (o : PopulateOptions) (path : Path) (w w' : World) (metrics : Metrics), o.template = {} →
        w.store.FileOrNothing path →
        (populate o path count : StateM World (Except PopulateError Metrics)).run w =
          (.ok metrics, w') →
        ∃ content, w'.store.content path = .ok content ∧
          personsOf content.data.toList = ps.map .ok) ∧
      Linked ps := by
  refine ⟨Person.range {} 0 count, Person.length_range _ _ _, ?_, ?_, ?_, linked_range count⟩
  · intro i hi
    have hlt : i < personCount := Nat.lt_of_lt_of_le (by simpa using hi) hcount
    rw [Person.getElem_range, Nat.zero_add]
    exact Person.ofIndex?_of_lt {} hlt
  · exact fun style => personsOf_dataset style {} count
  · intro o path w w' metrics htemplate hfile hrun
    obtain ⟨-, hcontent⟩ := populate_content hfile hrun
    refine ⟨_, hcontent, ?_⟩
    rw [List.toList_data_toByteArray, htemplate, personsOf_dataset]

/-- Of three persons the first refers to both others, and twelve references dangle. -/
theorem dataset_references_three :
    ∃ ps : List Person, personsOf (dataset .spaced {} 3) = ps.map .ok ∧
      (dangling ps).length = 12 ∧
      ∃ h : 2 < ps.length, ps[0].text (.friend 1) = ps[2].handle ∧
        ∀ j (hj : j < ps.length), ps[0].text (.friend 2) ≠ ps[j].handle := by
  obtain ⟨ps, hlength, -, hread, -, hlinked⟩ :=
    dataset_references (show 3 ≤ personCount by decide)
  refine ⟨ps, hread .spaced, ?_, by omega, ?_, ?_⟩
  · rw [hlinked.length_dangling, hlength]
    rfl
  · exact (hlinked.friend 0 2 (by omega) (by omega) 1).2 rfl
  · intro j hj hfriend
    have hthird := (hlinked.leads 0 (by omega) 2).1 ⟨j, hj, hfriend⟩
    rw [hlength] at hthird
    exact absurd hthird (by decide)

end Roster
