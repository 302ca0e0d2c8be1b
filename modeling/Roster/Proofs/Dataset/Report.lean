/-
**What a report says.**

The verifier takes values one by one and keeps a report: how many it has seen, how many of them
differ from the person of their position, and the first rows of those that do.  Here the report is
described without the verifier: for a list of values there is the list of all rows that differ,
and the report is read off it.  The verifier's report agrees with this one after every prefix of
the values, which is the invariant that carries a whole run.

Main definitions:

* `Roster.Person.Matches` — a value is an object with the keys and the texts of a person;
* `Roster.mismatches` — all positions of a list of values that differ, with their differences;
* `Roster.Report.ofValues` — the report on a list of values;
* `Roster.Verification.Tracks` — the state of the verifier after some values.

Main results:

* `Roster.differences_eq_nil_iff` — **no differences are found exactly in a matching value**;
* `Roster.Verification.Tracks.step` — one more value;
* `Roster.Verification.run_report` — the report of a whole run;
* `Roster.Report.isSuccess_ofValues` — the report on a list of values is a success exactly if each
  of them matches the person of its position and their number is the expected one.
-/

import Roster.Dataset.Verifier
import Roster.Proofs.Json.Members
import Roster.Proofs.Person.Sequence

set_option relaxedAutoImplicit false
set_option autoImplicit false

namespace Roster

open Json

/-! ### Matching values -/

/-- A value is an object whose keys are those of the fields, each with the text that a person has
in the field. -/
def Person.Matches (p : Person) (v : Value) : Prop :=
  ∃ members, v = .object members ∧ (∀ key, key ∈ members.map Prod.fst ↔ key ∈ Field.keys) ∧
    ∀ f : Field, lookup f.key members = some (.string (p.text f))

theorem fieldDifference?_eq_none_iff (key expected : String) (members : List (String × Value)) :
    fieldDifference? key expected members = none ↔
      lookup key members = some (.string expected) := by
  unfold fieldDifference?
  split
  · rename_i h
    simp [h]
  · rename_i s h
    by_cases hs : s = expected <;> simp [h, hs]
  · rename_i v hne h
    simp only [h, reduceCtorEq, Option.some.injEq, false_iff]
    exact hne expected

theorem extraDifferences_eq_nil_iff (members : List (String × Value)) :
    extraDifferences members = [] ↔ ∀ key ∈ members.map Prod.fst, key ∈ Field.keys := by
  simp [extraDifferences]

/-- **No differences are found exactly in a matching value.** -/
theorem differences_eq_nil_iff (p : Person) (v : Value) : differences p v = [] ↔ p.Matches v := by
  cases v with
  | object members =>
      have hfields : p.fields.filterMap (fun f => fieldDifference? f.1 f.2 members) = [] ↔
          ∀ f : Field, lookup f.key members = some (.string (p.text f)) := by
        simp [Person.fields, fieldDifference?_eq_none_iff, Field.mem_all]
      simp only [differences, List.append_eq_nil_iff, hfields, extraDifferences_eq_nil_iff]
      constructor
      · rintro ⟨htexts, hkeys⟩
        refine ⟨members, rfl, fun key => ⟨hkeys key, fun hkey => ?_⟩, htexts⟩
        obtain ⟨f, -, rfl⟩ := List.mem_map.1 hkey
        rw [mem_keys_iff, htexts f]
        rfl
      · rintro ⟨members', heq, hkeys, htexts⟩
        obtain rfl := Value.object.inj heq
        exact ⟨htexts, fun key hkey => (hkeys key).1 hkey⟩
  | null => simp [differences, Person.Matches]
  | bool b => simp [differences, Person.Matches]
  | number n => simp [differences, Person.Matches]
  | string s => simp [differences, Person.Matches]
  | array items => simp [differences, Person.Matches]

/-! ### The rows that differ -/

/-- The differences of the value at a position.  From the first position on that has no person the
sequence stands still. -/
def differencesAt (t : Template) (index : Nat) (v : Value) : List Difference :=
  Report.differencesAt (Sequence.next { template := t, index := min index personCount }) v

/-- All rows that differ among some values, the first of which has the position `index`. -/
def mismatches (t : Template) (index : Nat) : List Value → List Row
  | [] => []
  | v :: rest =>
    (if (differencesAt t index v).isEmpty then [] else [⟨index, differencesAt t index v⟩])
      ++ mismatches t (index + 1) rest

/-- The report on a list of values. -/
def Report.ofValues (t : Template) (expected : Nat) (vs : List Value) : Report :=
  { expected
    found := vs.length
    matched := vs.length - (mismatches t 0 vs).length
    mismatched := (mismatches t 0 vs).length
    rows := (mismatches t 0 vs).take maxRows }

theorem mismatches_append (t : Template) (index : Nat) (vs ws : List Value) :
    mismatches t index (vs ++ ws) =
      mismatches t index vs ++ mismatches t (index + vs.length) ws := by
  induction vs generalizing index with
  | nil => simp [mismatches]
  | cons v vs ih =>
      have h : index + 1 + vs.length = index + (vs.length + 1) := by omega
      simp [mismatches, ih, h]

theorem length_mismatches_le (t : Template) (index : Nat) (vs : List Value) :
    (mismatches t index vs).length ≤ vs.length := by
  induction vs generalizing index with
  | nil => simp [mismatches]
  | cons v vs ih =>
      have h := ih (index + 1)
      simp only [mismatches, List.length_append, List.length_cons]
      split
      · simp only [List.length_nil]
        omega
      · simp only [List.length_cons, List.length_nil]
        omega

/-- No row differs exactly if no value does. -/
theorem mismatches_eq_nil_iff (t : Template) (index : Nat) (vs : List Value) :
    mismatches t index vs = [] ↔
      ∀ i (h : i < vs.length), differencesAt t (index + i) vs[i] = [] := by
  induction vs generalizing index with
  | nil => simp [mismatches]
  | cons v vs ih =>
      rw [mismatches, List.append_eq_nil_iff, ih]
      constructor
      · rintro ⟨hv, hvs⟩ i hi
        cases i with
        | zero =>
            cases hd : differencesAt t index v with
            | nil => simpa using hd
            | cons d ds => simp [hd] at hv
        | succ i =>
            have h := hvs i (by simpa using hi)
            rw [show index + 1 + i = index + (i + 1) by omega] at h
            simpa using h
      · intro h
        refine ⟨?_, fun i hi => ?_⟩
        · have hv := h 0 (by simp)
          simp only [Nat.add_zero, List.getElem_cons_zero] at hv
          simp [hv]
        · have hi' := h (i + 1) (by simpa using hi)
          rw [show index + 1 + i = index + (i + 1) by omega]
          simpa using hi'

/-! ### The run of the verifier -/

/-- The state of the verifier after some values: the report on these values, and the sequence at
the position behind them. -/
structure Verification.Tracks (t : Template) (expected : Nat) (vs : List Value)
    (s : Verification) : Prop where
  /-- The report is that on the values. -/
  report : s.report = Report.ofValues t expected vs
  /-- The sequence stands behind the values. -/
  sequence : s.sequence = { template := t, index := min vs.length personCount }

namespace Verification

variable {t : Template} {expected : Nat} {vs : List Value} {s : Verification}

theorem tracks_start (t : Template) (expected : Nat) : Tracks t expected [] (start t expected) :=
  ⟨rfl, rfl⟩

/-- A sequence that stands at the position of a person moves on, and one behind them stays. -/
theorem next_sequence (t : Template) (i : Nat) :
    (match Sequence.next { template := t, index := min i personCount } with
      | .ok (_, sequence) => sequence
      | .error _ => { template := t, index := min i personCount }) =
      { template := t, index := min (i + 1) personCount } := by
  by_cases h : i < personCount
  · have hmin : min i personCount = i := by omega
    have hnext : min (i + 1) personCount = i + 1 := by omega
    rw [hmin, hnext, Sequence.next_of_lt h]
  · have hmin : min i personCount = personCount := by omega
    have hnext : min (i + 1) personCount = personCount := by omega
    rw [hmin, hnext, Sequence.next_of_not_lt (Nat.lt_irrefl _)]

/-- The first `k` items of a list that grows at its end. -/
theorem take_concat {α : Type} (k : Nat) (l : List α) (a : α) :
    (l ++ [a]).take k = if (l.take k).length < k then l.take k ++ [a] else l.take k := by
  rw [List.take_append, List.length_take]
  split
  · rename_i h
    obtain ⟨j, hj⟩ : ∃ j, k - l.length = j + 1 := ⟨k - l.length - 1, by omega⟩
    simp [hj]
  · rename_i h
    have hzero : k - l.length = 0 := by omega
    simp [hzero]

/-- A report takes in one more value as the report on one more value says. -/
theorem add_ofValues (t : Template) (expected : Nat) (vs : List Value) (v : Value) :
    (Report.ofValues t expected vs).add (differencesAt t vs.length v) =
      Report.ofValues t expected (vs ++ [v]) := by
  have hle := length_mismatches_le t 0 vs
  have happend := mismatches_append t 0 vs [v]
  simp only [mismatches, Nat.zero_add, List.append_nil] at happend
  -- only a value that differs adds a row, and it is the last one
  by_cases hd : (differencesAt t vs.length v).isEmpty = true
  · rw [if_pos hd, List.append_nil] at happend
    simp only [Report.add, Report.ofValues, hd, if_true, happend, List.length_append,
      List.length_cons, List.length_nil, Report.mk.injEq, and_true, true_and]
    omega
  · rw [if_neg hd] at happend
    simp only [Report.add, Report.ofValues, hd, Bool.false_eq_true, if_false, happend,
      take_concat, List.length_append, List.length_cons, List.length_nil, Report.mk.injEq,
      and_true, true_and]
    exact ⟨by omega, rfl⟩

/-- One more value. -/
theorem Tracks.step (h : Tracks t expected vs s) (v : Value) :
    Tracks t expected (vs ++ [v]) (s.step v) := by
  obtain ⟨hreport, hsequence⟩ := h
  refine ⟨?_, ?_⟩
  · rw [← add_ofValues, ← hreport, differencesAt, ← hsequence]
    rfl
  · rw [List.length_append, List.length_singleton, ← next_sequence, ← hsequence]
    rfl

/-- All of some more values. -/
theorem Tracks.run (h : Tracks t expected vs s) (ws : List Value) :
    Tracks t expected (vs ++ ws) (ws.foldl Verification.step s) := by
  induction ws generalizing vs s with
  | nil => simpa using h
  | cons w ws ih => simpa using ih (h.step w)

/-- The report of a whole run. -/
theorem run_report (t : Template) (expected : Nat) (vs : List Value) :
    (vs.foldl Verification.step (start t expected)).report = Report.ofValues t expected vs :=
  ((tracks_start t expected).run vs).report

end Verification

/-! ### Success -/

/-- There are no differences at a position exactly if there is a person and the value matches
it. -/
theorem differencesAt_eq_nil_iff (t : Template) (index : Nat) (v : Value) :
    differencesAt t index v = [] ↔
      ∃ p, Person.ofIndex? t index = .ok p ∧ p.Matches v := by
  by_cases h : index < personCount
  · have hmin : min index personCount = index := by omega
    rw [differencesAt, hmin, Sequence.next_of_lt h]
    simp [Report.differencesAt, Person.ofIndex?_of_lt t h, differences_eq_nil_iff]
  · have hmin : min index personCount = personCount := by omega
    rw [differencesAt, hmin, Sequence.next_of_not_lt (Nat.lt_irrefl _)]
    simp [Report.differencesAt, Person.ofIndex?_of_not_lt t h]

/-- The report on a list of values is a success exactly if each of them matches the person of its
position and their number is the expected one. -/
theorem Report.isSuccess_ofValues (t : Template) (expected : Nat) (vs : List Value) :
    (Report.ofValues t expected vs).isSuccess = true ↔
      vs.length = expected ∧ ∀ i (h : i < vs.length),
        ∃ p, Person.ofIndex? t i = .ok p ∧ p.Matches vs[i] := by
  have hnil := mismatches_eq_nil_iff t 0 vs
  simp only [Nat.zero_add, differencesAt_eq_nil_iff] at hnil
  simp only [Report.isSuccess, Bool.and_eq_true, decide_eq_true_eq]
  simp only [Report.ofValues, List.length_eq_zero_iff, hnil]

end Roster
