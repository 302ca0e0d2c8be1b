/-
**Persons in another order.**

Thirteen of the twenty-one fields have the same text in all persons of a template.  The others are
formed from the index of the person, and tell any two persons apart: no two indices have the same
digits.  So whatever persons of its template a file holds, in whatever order and how often, a report
counts exactly the positions that hold another person than their own, and names these eight fields
at each of them.

Main definitions:

* `Roster.Field.isIndexed` — the fields that are formed from the index;
* `Roster.misplaced` — the positions of a list of indices that hold another index than their own.

Main results:

* `Roster.Person.text_ofIndex_eq_iff` — when two persons have the same text in a field;
* `Roster.differences_of_matches` — the differences between two persons;
* `Roster.verify_pinpoints` — **every reordering, omission and repetition is found, and where**.
-/

import Roster.Proofs.Dataset.Accounting

set_option relaxedAutoImplicit false
set_option autoImplicit false

namespace Roster

open Json

/-! ### The fields that tell persons apart -/

/-- The text of the field is formed from the index of the person. -/
def Field.isIndexed : Field → Bool
  | .id | .name | .friend _ | .company => true
  | _ => false

theorem Field.keys_indexed :
    (Field.all.filter Field.isIndexed).map Field.key =
      ["@id", "name", "friend", "friend1", "friend2", "friend3", "friend4", "company"] := by
  decide

/-- No two indices have the same digits: they are read back as the index. -/
theorem repr_inj {i j : Nat} : i.repr = j.repr ↔ i = j := by
  constructor
  · intro h
    calc i = Nat.ofDigitChars 10 (Nat.toDigits 10 i) 0 := Nat.ofDigitChars_ten_toDigits.symm
      _ = Nat.ofDigitChars 10 (Nat.toDigits 10 j) 0 := by rw [← Nat.toList_repr, h, Nat.toList_repr]
      _ = j := Nat.ofDigitChars_ten_toDigits
  · rintro rfl
    rfl

/-- Two persons of a template have the same text in a field exactly if it is not formed from the
index or they are the same person. -/
theorem Person.text_ofIndex_eq_iff {t : Template} {i j : Nat} {f : Field} :
    (ofIndex t i).text f = (ofIndex t j).text f ↔ (f.isIndexed = true → i = j) := by
  cases f with
  | id | name | company | friend =>
      simp only [ofIndex, Field.isIndexed, reference, identifier, String.append_right_inj,
        String.append_left_inj, Nat.toString_eq_repr, repr_inj, Nat.add_right_cancel_iff,
        forall_const]
  | _ => simp [ofIndex, Field.isIndexed]

/-! ### Differences between persons -/

/-- The differences from a person to a value that another person matches: the fields in which the
two have other texts. -/
theorem differences_of_matches (p : Person) {q : Person} {v : Value} (h : q.Matches v) :
    differences p v =
      (Field.all.filter fun f => decide (q.text f ≠ p.text f)).map fun f =>
        ⟨f.key, p.text f, (Value.string (q.text f)).compact⟩ := by
  obtain ⟨members, rfl, hkeys, htexts⟩ := h
  have hextra : extraDifferences members = [] :=
    (extraDifferences_eq_nil_iff members).2 fun key hkey => (hkeys key).1 hkey
  have hfield : ∀ f : Field, fieldDifference? f.key (p.text f) members =
      if q.text f = p.text f then none
      else some ⟨f.key, p.text f, (Value.string (q.text f)).compact⟩ := by
    intro f
    rw [fieldDifference?, htexts f]
  rw [differences, hextra, List.append_nil, Person.fields, List.filterMap_map]
  simp only [Function.comp_def, hfield]
  generalize Field.all = fs
  induction fs with
  | nil => rfl
  | cons f fs ih =>
      rw [List.filterMap_cons, ih]
      by_cases hf : q.text f = p.text f <;> simp [hf]

/-- A value that one person of a template matches differs from another one in the fields that are
formed from the index. -/
theorem fields_differences {t : Template} {i j : Nat} (hne : i ≠ j) {v : Value}
    (h : (Person.ofIndex t j).Matches v) :
    (differences (Person.ofIndex t i) v).map Difference.field =
      ["@id", "name", "friend", "friend1", "friend2", "friend3", "friend4", "company"] := by
  have hfilter : (fun f => decide ((Person.ofIndex t j).text f ≠ (Person.ofIndex t i).text f)) =
      Field.isIndexed := by
    funext f
    cases hf : f.isIndexed <;> simp [Person.text_ofIndex_eq_iff, hf, hne.symm]
  rw [differences_of_matches _ h, hfilter, List.map_map, ← Field.keys_indexed]
  rfl

/-- A value is matched by one person of a template at most. -/
theorem Person.matches_ofIndex_iff {t : Template} {i j : Nat} {v : Value}
    (h : (ofIndex t j).Matches v) : (ofIndex t i).Matches v ↔ i = j := by
  constructor
  · intro hi
    by_cases hne : i = j
    · exact hne
    · have hfields := fields_differences hne h
      rw [(differences_eq_nil_iff _ _).2 hi] at hfields
      cases hfields
  · rintro rfl
    exact h

/-! ### Reports on persons -/

/-- The positions of a list of indices that hold another index than their own. -/
def misplaced (s : List Nat) : List Nat :=
  (List.range s.length).filter fun i => decide (s[i]? ≠ some i)

theorem mem_misplaced_iff {s : List Nat} {i : Nat} :
    i ∈ misplaced s ↔ ∃ hi : i < s.length, s[i] ≠ i := by
  rw [misplaced, List.mem_filter, List.mem_range, decide_eq_true_eq]
  constructor
  · rintro ⟨hi, hne⟩
    exact ⟨hi, by simpa [hi] using hne⟩
  · rintro ⟨hi, hne⟩
    exact ⟨hi, by simpa [hi] using hne⟩

/-- No index is misplaced exactly in a list of the first indices, in their order. -/
theorem misplaced_eq_nil_iff {s : List Nat} : misplaced s = [] ↔ s = List.range s.length := by
  rw [List.eq_nil_iff_forall_not_mem]
  constructor
  · intro hno
    refine List.ext_getElem (by simp) fun i hi hi' => ?_
    rw [List.getElem_range]
    exact Decidable.byContradiction fun hne => hno i (mem_misplaced_iff.2 ⟨hi, hne⟩)
  · intro heq i hi
    obtain ⟨hi, hne⟩ := mem_misplaced_iff.1 hi
    exact hne ((List.getElem_of_eq heq hi).trans (List.getElem_range _))

section

variable (t : Template) (expected : Nat) {s : List Nat} {vs : List Value}

/-- A report on persons counts the misplaced ones, and finds the same fields different in each. -/
theorem Report.ofValues_persons (hs : s.length ≤ personCount) (hlength : vs.length = s.length)
    (hpersons : ∀ i (hi : i < vs.length) (hi' : i < s.length),
      (Person.ofIndex t s[i]).Matches vs[i]) :
    (ofValues t expected vs).mismatched = (misplaced s).length ∧
      (ofValues t expected vs).rows.map Row.index = (misplaced s).take maxRows ∧
      ∀ row ∈ (ofValues t expected vs).rows, row.differences.map Difference.field =
        ["@id", "name", "friend", "friend1", "friend2", "friend3", "friend4", "company"] := by
  obtain ⟨positions, hsorted, hmem, hmismatched, hkept, hrows⟩ :=
    positions_ofValues t expected (hlength ▸ hs)
  have hother : ∀ i (hi : i < vs.length) (hi' : i < s.length),
      ¬(Person.ofIndex t i).Matches vs[i] ↔ s[i] ≠ i := by
    intro i hi hi'
    rw [Person.matches_ofIndex_iff (hpersons i hi hi'), ne_eq, eq_comm]
  have hpositions : positions = misplaced s := by
    refine eq_of_pairwise_lt hsorted (List.pairwise_lt_range.filter _) fun i => ?_
    rw [hmem, mem_misplaced_iff]
    constructor
    · rintro ⟨hi, hno⟩
      exact ⟨hlength ▸ hi, (hother i hi _).1 hno⟩
    · rintro ⟨hi', hne⟩
      exact ⟨hlength ▸ hi', (hother i _ hi').2 hne⟩
  subst hpositions
  refine ⟨hmismatched, hkept, ?_⟩
  intro row hrow
  obtain ⟨hne, hi, hds⟩ := hrows row hrow
  have hi' : row.index < s.length := hlength ▸ hi
  have hno : ¬(Person.ofIndex t row.index).Matches vs[row.index] := by
    rw [← differences_eq_nil_iff, ← hds]
    exact hne
  rw [hds]
  exact fields_differences (Ne.symm ((hother _ hi hi').1 hno)) (hpersons _ hi hi')

end

/-! ### Files -/

/-- The persons of some indices, as objects. -/
def personsAt (t : Template) (s : List Nat) : List Value :=
  s.map fun i => (Person.ofIndex t i).toJson

/-- A document with persons is read back as values that these persons match. -/
theorem parse_personsAt (style : Style) (t : Template) (s : List Nat) :
    ∃ vs, parse (document style (personsAt t s)) = .ok (.array vs) ∧ vs.length = s.length ∧
      ∀ i (hi : i < vs.length) (hi' : i < s.length), (Person.ofIndex t s[i]).Matches vs[i] := by
  refine ⟨_, parse_document style fun v hv => ?_, by simp [personsAt], ?_⟩
  · obtain ⟨i, -, rfl⟩ := List.mem_map.1 hv
    exact Person.readable_toJson _ 125
  · intro i hi hi'
    simp only [personsAt, List.getElem_map]
    exact Person.matches_normal _

/-- **Every reordering, omission and repetition is found, and where.**  In a file with persons of
the template at hand the verifier counts the positions that hold another person than their own, and
names the same eight fields at each of those that it keeps.  So it takes no list of persons for the
first ones but these, in their order. -/
theorem verify_pinpoints (t : Template) (style : Style) {s : List Nat}
    (hs : s.length ≤ personCount) (path : Path) (expected : Nat) {w : World}
    (h : w.store.content path = .ok (document style (personsAt t s)).toByteArray) :
    ∃ r, ((verify t path expected : StateM World _).run w).1 = .ok r ∧ r.found = s.length ∧
      r.mismatched = (misplaced s).length ∧ r.rows.map Row.index = (misplaced s).take 10 ∧
      (∀ row ∈ r.rows, row.differences.map Difference.field =
        ["@id", "name", "friend", "friend1", "friend2", "friend3", "friend4", "company"]) ∧
      (expected = s.length → (r.isSuccess = true ↔ s = List.range s.length)) := by
  obtain ⟨vs, hvs, hlength, hpersons⟩ := parse_personsAt style t s
  obtain ⟨hmismatched, hkept, hfields⟩ := Report.ofValues_persons t expected hs hlength hpersons
  refine ⟨Report.ofValues t expected vs, ?_, hlength, hmismatched, hkept, hfields, ?_⟩
  · rw [verify_eq_ok_iff h, List.toList_data_toByteArray]
    exact ⟨vs, hvs, rfl⟩
  · intro hexpected
    have hfound : (Report.ofValues t expected vs).found = s.length := hlength
    have hlast : (Report.ofValues t expected vs).expected = s.length := hexpected
    rw [← misplaced_eq_nil_iff, Report.isSuccess, hfound, hlast, hmismatched]
    simp

/-- Two persons that have changed places are both found at the wrong one. -/
theorem verify_pinpoints_swapped :
    ∃ r, ((verify {} ⟨"data.json"⟩ 3 : StateM World _).run
        (.ofFile (document .spaced (personsAt {} [1, 0, 2])))).1 = .ok r ∧
      r.mismatched = 2 ∧ r.rows.map Row.index = [0, 1] ∧ r.isSuccess = false := by
  obtain ⟨r, hr, -, hmismatched, hkept, -, hsuccess⟩ :=
    verify_pinpoints {} .spaced (show [1, 0, 2].length ≤ personCount by decide) ⟨"data.json"⟩ 3
      (World.content_ofFile _)
  refine ⟨r, hr, hmismatched, hkept, ?_⟩
  rw [← Bool.not_eq_true, hsuccess rfl]
  decide

end Roster
