/-
**The accounts of a report.**

Four counters and a list that holds ten rows at most are all that is kept of a verification.  Here
they are read off the values: the rows that differ are those of the positions whose values do not
match, in the order of the positions, and the list holds the first of them.  The counters balance:
what was found either matched or did not, and what was found with what is missing is what was
expected with what was not.

Main results:

* `Roster.mem_mismatches_iff`, `Roster.pairwise_mismatches` — which rows differ, and in which order;
* `Roster.Report.positions_ofValues` — the positions that a report counts and those that it keeps;
* `Roster.verify_accounts` — **the accounts of every report of the verifier**.
-/

import Roster.Proofs.Dataset.Verification

set_option relaxedAutoImplicit false
set_option autoImplicit false

namespace Roster

open Json

/-! ### The rows that differ -/

/-- The rows that differ are those of the positions whose values have differences. -/
theorem mem_mismatches_iff {t : Template} {index : Nat} {vs : List Value} {row : Row} :
    row ∈ mismatches t index vs ↔
      ∃ i, ∃ h : i < vs.length, row.index = index + i ∧ row.differences ≠ [] ∧
        row.differences = differencesAt t (index + i) vs[i] := by
  induction vs generalizing index with
  | nil => simp [mismatches]
  | cons v vs ih =>
      have hhead : row ∈ (if (differencesAt t index v).isEmpty then []
          else [⟨index, differencesAt t index v⟩] : List Row) ↔
          row.index = index ∧ row.differences ≠ [] ∧
            row.differences = differencesAt t index v := by
        cases row with
        | mk i ds =>
            by_cases hd : differencesAt t index v = []
            · simp +contextual [hd]
            · simp +contextual [hd]
      rw [mismatches, List.mem_append, hhead, ih]
      constructor
      · rintro (h | ⟨i, hi, h⟩)
        · exact ⟨0, by simp, by simpa using h⟩
        · refine ⟨i + 1, by simpa using hi, ?_⟩
          rwa [List.getElem_cons_succ, show index + (i + 1) = index + 1 + i by omega]
      · rintro ⟨i, hi, h⟩
        cases i with
        | zero => exact .inl (by simpa using h)
        | succ i =>
            refine .inr ⟨i, by simpa using hi, ?_⟩
            rwa [List.getElem_cons_succ, show index + (i + 1) = index + 1 + i by omega] at h

/-- The rows that differ come in the order of their positions. -/
theorem pairwise_mismatches (t : Template) (index : Nat) (vs : List Value) :
    (mismatches t index vs).Pairwise fun row row' => row.index < row'.index := by
  induction vs generalizing index with
  | nil => exact .nil
  | cons v vs ih =>
      rw [mismatches, List.pairwise_append]
      refine ⟨?_, ih (index + 1), ?_⟩
      · split
        · exact .nil
        · exact List.pairwise_singleton _ _
      · intro row hrow row' hrow'
        obtain ⟨i, -, hindex, -⟩ := mem_mismatches_iff.1 hrow'
        have hhead : row.index = index := by
          split at hrow
          · cases hrow
          · rw [List.mem_singleton.1 hrow]
        omega

/-- The differences at a position that has a person are those from the person. -/
theorem differencesAt_of_lt (t : Template) {i : Nat} (h : i < personCount) (v : Value) :
    differencesAt t i v = differences (Person.ofIndex t i) v := by
  have hmin : min i personCount = i := by omega
  rw [differencesAt, hmin, Sequence.next_of_lt h, Report.differencesAt]

/-- Two ascending lists of positions with the same positions are equal. -/
theorem eq_of_pairwise_lt {l l' : List Nat} (h : l.Pairwise (· < ·)) (h' : l'.Pairwise (· < ·))
    (hmem : ∀ i, i ∈ l ↔ i ∈ l') : l = l' := by
  have hperm : l.Perm l' := by
    refine (List.perm_ext_iff_of_nodup ?_ ?_).2 hmem
    · exact h.imp fun hlt => Nat.ne_of_lt hlt
    · exact h'.imp fun hlt => Nat.ne_of_lt hlt
  exact hperm.eq_of_pairwise (fun i j _ _ hij hji => by omega) h h'

/-! ### Reports on values -/

namespace Report

variable (t : Template) (expected : Nat) {vs : List Value}

/-- The positions that a report counts, and those that it keeps with their differences. -/
theorem positions_ofValues (hcount : vs.length ≤ personCount) :
    ∃ positions : List Nat, positions.Pairwise (· < ·) ∧
      (∀ i, i ∈ positions ↔ ∃ hi : i < vs.length, ¬(Person.ofIndex t i).Matches vs[i]) ∧
      (ofValues t expected vs).mismatched = positions.length ∧
      (ofValues t expected vs).rows.map Row.index = positions.take maxRows ∧
      ∀ row ∈ (ofValues t expected vs).rows, row.differences ≠ [] ∧
        ∃ hi : row.index < vs.length,
          row.differences = differences (Person.ofIndex t row.index) vs[row.index] := by
  have hmem : ∀ row, row ∈ mismatches t 0 vs ↔ ∃ hi : row.index < vs.length,
      row.differences ≠ [] ∧
        row.differences = differences (Person.ofIndex t row.index) vs[row.index] := by
    intro row
    rw [mem_mismatches_iff]
    constructor
    · rintro ⟨i, hi, hindex, hne, hds⟩
      rw [Nat.zero_add] at hindex hds
      subst hindex
      rw [differencesAt_of_lt t (by omega)] at hds
      exact ⟨hi, hne, hds⟩
    · rintro ⟨hi, hne, hds⟩
      refine ⟨row.index, hi, (Nat.zero_add _).symm, hne, ?_⟩
      rw [Nat.zero_add, differencesAt_of_lt t (by omega)]
      exact hds
  refine ⟨(mismatches t 0 vs).map Row.index, ?_, ?_, (List.length_map _).symm, List.map_take, ?_⟩
  · rw [List.pairwise_map]
    exact pairwise_mismatches t 0 vs
  · intro i
    simp only [List.mem_map, ← differences_eq_nil_iff]
    constructor
    · rintro ⟨row, hrow, rfl⟩
      obtain ⟨hi, hne, hds⟩ := (hmem row).1 hrow
      exact ⟨hi, hds ▸ hne⟩
    · rintro ⟨hi, hne⟩
      exact ⟨⟨i, _⟩, (hmem _).2 ⟨hi, hne, rfl⟩, rfl⟩
  · intro row hrow
    obtain ⟨hi, hne, hds⟩ := (hmem row).1 (List.mem_of_mem_take hrow)
    exact ⟨hne, hi, hds⟩

/-- What was found either matched or did not. -/
theorem matched_add_mismatched_ofValues (vs : List Value) :
    (ofValues t expected vs).matched + (ofValues t expected vs).mismatched = vs.length := by
  have h := length_mismatches_le t 0 vs
  simp only [ofValues]
  omega

end Report

/-! ### Files -/

/-- **The accounts of every report of the verifier.**  The counters balance, and as long as there
are persons to compare with, the report counts the positions whose values do not match and keeps the
first ten of them, with all differences. -/
theorem verify_accounts {t : Template} {path : Path} {expected : Nat} {w : World}
    {content : ByteArray} {r : Report} (h : w.store.content path = .ok content)
    (hr : ((verify t path expected : StateM World _).run w).1 = .ok r) :
    ∃ vs, parse content.data.toList = .ok (.array vs) ∧
      r.expected = expected ∧ r.found = vs.length ∧ r.matched + r.mismatched = r.found ∧
      (vs.length ≤ personCount →
        ∃ positions : List Nat, positions.Pairwise (· < ·) ∧
          (∀ i, i ∈ positions ↔ ∃ hi : i < vs.length, ¬(Person.ofIndex t i).Matches vs[i]) ∧
          r.mismatched = positions.length ∧
          r.rows.map Row.index = positions.take 10 ∧
          ∀ row ∈ r.rows, row.differences ≠ [] ∧
            ∃ hi : row.index < vs.length,
              row.differences = differences (Person.ofIndex t row.index) vs[row.index]) ∧
      r.found + r.missing = r.expected + r.unexpected ∧
      (r.missing = 0 ∨ r.unexpected = 0) ∧
      (r.isSuccess = true ↔ r.missing = 0 ∧ r.unexpected = 0 ∧ r.mismatched = 0) ∧
      (r.isSuccess = true ↔ r.matched = r.found ∧ r.found = r.expected) := by
  obtain ⟨vs, hvs, rfl⟩ := (verify_eq_ok_iff h).1 hr
  have hbalance := Report.matched_add_mismatched_ofValues t expected vs
  have hfound : (Report.ofValues t expected vs).found = vs.length := rfl
  refine ⟨vs, hvs, rfl, rfl, hbalance, Report.positions_ofValues t expected, ?_⟩
  generalize Report.ofValues t expected vs = r at hbalance hfound
  simp only [Report.missing, Report.unexpected, Report.isSuccess, Bool.and_eq_true,
    decide_eq_true_eq]
  refine ⟨by omega, by omega, ?_, ?_⟩
  · constructor <;> intro h <;> omega
  · constructor <;> intro h <;> omega

/-- Of three persons one is found, and it is `null`. -/
theorem verify_accounts_null :
    ∃ r, ((verify {} ⟨"data.json"⟩ 3 : StateM World _).run
        (.ofFile (document .compact [.null]))).1 = .ok r ∧
      r.found = 1 ∧ r.mismatched = 1 ∧ r.rows.map Row.index = [0] ∧ r.missing = 2 := by
  have hreadable : ∀ v ∈ [Value.null], Readable (maxDepth - 1) v := by
    intro v hv
    rw [List.mem_singleton.1 hv]
    exact .null _
  have hcontent := World.content_ofFile (document .compact [.null])
  have hnormal : [Value.null].map Value.normal = [.null] := by simp [Value.normal]
  have hr := verify_document .compact hreadable {} 3
  have hparse := parse_document .compact hreadable
  rw [hnormal] at hr hparse
  obtain ⟨vs, hvs, hexpected, hfound, -, hrows, hbalance, hone, -, -⟩ :=
    verify_accounts hcontent hr
  rw [List.toList_data_toByteArray, hparse] at hvs
  obtain rfl := Value.array.inj (Except.ok.inj hvs)
  obtain ⟨positions, hsorted, hmem, hmismatched, hkept, -⟩ := hrows (by decide)
  have hzero : 0 ∈ positions := by
    refine (hmem 0).2 ⟨by decide, ?_⟩
    rintro ⟨members, hobject, -⟩
    cases hobject
  have hpositions : positions = [0] := by
    refine eq_of_pairwise_lt hsorted (List.pairwise_singleton _ _) fun i => ?_
    rw [List.mem_singleton]
    constructor
    · intro hi
      obtain ⟨hlt, -⟩ := (hmem i).1 hi
      exact Nat.lt_one_iff.1 hlt
    · rintro rfl
      exact hzero
  subst hpositions
  rw [List.length_singleton] at hfound
  exact ⟨_, hr, hfound, hmismatched, hkept, by omega⟩

end Roster
