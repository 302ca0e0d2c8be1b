/-
**The persons that exist.**

A person exists if the last of its friends has an index, so there are five persons less than there
are indices.  Steps and batches of a sequence succeed as far as there are persons; said with their
number, the conditions need no arithmetic on the largest index.

Main definitions:

* `Roster.personCount` — how many persons there are.

Main results:

* `Roster.lt_personCount_iff` — the persons are those whose friends have indices;
* `Roster.Sequence.batch_eq_ok_iff` — **a batch is given exactly if all of its persons exist**;
* `Roster.Batch.next_succ` — it then gives them one after the other.
-/

import Roster.Person.Sequence

set_option relaxedAutoImplicit false
set_option autoImplicit false

namespace Roster

/-! ### Indices -/

/-- How many persons there are. -/
def personCount : Nat := maxIndex - maxOffset + 1

theorem lt_personCount_iff {i : Nat} : i < personCount ↔ i + maxOffset ≤ maxIndex := by
  simp only [personCount, maxIndex, maxOffset, UInt64.size]
  omega

example : personCount = 2 ^ 64 - 5 := by decide

theorem Person.ofIndex?_of_lt (t : Template) {i : Nat} (h : i < personCount) :
    Person.ofIndex? t i = .ok (Person.ofIndex t i) :=
  if_pos (lt_personCount_iff.1 h)

theorem Person.ofIndex?_of_not_lt (t : Template) {i : Nat} (h : ¬i < personCount) :
    Person.ofIndex? t i = .error ⟨i⟩ :=
  if_neg fun hle => h (lt_personCount_iff.2 hle)

theorem Person.eq_ofIndex {t : Template} {i : Nat} {p : Person} (h : Person.ofIndex? t i = .ok p) :
    p = Person.ofIndex t i := by
  unfold Person.ofIndex? at h
  split at h
  · exact (Except.ok.inj h).symm
  · cases h

/-! ### Steps -/

namespace Sequence

variable {s : Sequence}

theorem next_of_lt (h : s.index < personCount) :
    s.next = .ok (Person.ofIndex s.template s.index, { s with index := s.index + 1 }) :=
  next_of_le s (lt_personCount_iff.1 h)

theorem next_of_not_lt (h : ¬s.index < personCount) : s.next = .error ⟨s.index⟩ :=
  next_of_gt s (Nat.lt_of_not_le fun hle => h (lt_personCount_iff.2 hle))

/-! ### Batches -/

/-- **A batch is given exactly if all of its persons exist.** -/
theorem batch_eq_ok_iff {count : Nat} {b : Batch} :
    s.batch count = .ok b ↔ (count ≠ 0 → s.index + count ≤ personCount) ∧ b = ⟨s, count⟩ := by
  unfold batch
  by_cases hcount : count = 0
  · simp [hcount, eq_comm]
  · have hlast : s.index + (count - 1) < personCount ↔ s.index + count ≤ personCount := by omega
    rw [← hlast, lt_personCount_iff]
    simp only [hcount, if_false, ne_eq, not_false_eq_true, forall_const]
    by_cases hlt : maxIndex < s.index + (count - 1)
    · have hno : ¬s.index + (count - 1) + maxOffset ≤ maxIndex := by omega
      simp [hlt, hno]
    · by_cases hover : maxIndex < s.index + (count - 1) + maxOffset
      · simp [hlt, hover, Nat.not_le.2 hover]
      · simp [hlt, hover, Nat.not_lt.1 hover, eq_comm]

/-- A batch from the first person on is given exactly if so many persons exist. -/
theorem batch_eq_ok_iff_le {t : Template} {count : Nat} {b : Batch} :
    batch { template := t } count = .ok b ↔
      count ≤ personCount ∧ b = ⟨{ template := t }, count⟩ := by
  have hzero : (count ≠ 0 → 0 + count ≤ personCount) ↔ count ≤ personCount := by
    rw [Nat.zero_add]
    exact ⟨fun h => by by_cases hcount : count = 0 <;> omega, fun h _ => h⟩
  rw [batch_eq_ok_iff, hzero]

theorem batch_of_le (t : Template) {count : Nat} (h : count ≤ personCount) :
    batch { template := t } count = .ok ⟨{ template := t }, count⟩ :=
  batch_eq_ok_iff_le.2 ⟨h, rfl⟩

/-- A batch of more persons than exist is refused at its last one. -/
theorem batch_of_gt (t : Template) {count : Nat} (h : personCount < count)
    (hindex : count ≤ maxIndex) : batch { template := t } count = .error ⟨count - 1⟩ := by
  have hzero : count ≠ 0 := by omega
  have hlast : ¬maxIndex < 0 + (count - 1) := by omega
  have hover : maxIndex < 0 + (count - 1) + maxOffset := by
    simp only [personCount, maxIndex, maxOffset, UInt64.size] at *
    omega
  rw [batch, if_neg hzero, if_neg hlast, if_pos hover, Nat.zero_add]

end Sequence

/-- A batch gives its persons one after the other, as far as they exist. -/
theorem Batch.next_succ {t : Template} {i : Nat} (h : i < personCount) (k : Nat) :
    Batch.next ⟨{ template := t, index := i }, k + 1⟩ =
      (some (Person.ofIndex t i), ⟨{ template := t, index := i + 1 }, k⟩) := by
  simp [Batch.next, Sequence.next_of_lt (s := ⟨t, i⟩) h]

end Roster
