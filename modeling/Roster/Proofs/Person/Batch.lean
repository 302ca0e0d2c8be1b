/-
**Batches and single steps.**

A batch is checked once, before its first person, and a step of a batch that failed would look like
its end.  So it has to be shown that the check is neither too strict nor too lax: a batch is given
exactly if as many single steps would all succeed, and then it gives the same persons, one after the
other, until the last of them has been given and not before.

Main definitions:

* `Roster.Person.range` — the persons of some indices in a row;
* `Roster.Sequence.steps` — single steps in a row;
* `Roster.Sequence.Supplies` — a sequence has so many persons to give.

Main results:

* `Roster.Sequence.steps_of_supplies`, `Roster.Sequence.steps_of_not_supplies` — steps in a row give
  the persons in a row, or stop at the first one that does not exist;
* `Roster.Batch.take_eq` — what is taken from a batch, and what is left of it;
* `Roster.Sequence.batch_agrees_with_steps` — **a batch is as many single steps**.
-/

import Mathlib.Algebra.Group.Nat.Defs
import Roster.Person.Call
import Roster.Proofs.Person.Sequence

set_option relaxedAutoImplicit false
set_option autoImplicit false

namespace Roster

/-! ### Persons in a row -/

/-- The persons of the indices `start`, …, `start + count - 1`. -/
def Person.range (t : Template) (start count : Nat) : List Person :=
  (List.range count).map fun i => ofIndex t (start + i)

namespace Person

variable (t : Template) (start : Nat)

@[simp] theorem range_zero : range t start 0 = [] := rfl

theorem range_succ (count : Nat) :
    range t start (count + 1) = ofIndex t start :: range t (start + 1) count := by
  simp only [range, List.range_succ_eq_map, List.map_cons, List.map_map, Nat.add_zero]
  refine congrArg _ (List.map_congr_left fun i _ => ?_)
  rw [Function.comp_apply, Nat.succ_eq_add_one, Nat.add_comm i, ← Nat.add_assoc]

@[simp] theorem length_range (count : Nat) : (range t start count).length = count := by
  simp [range]

theorem take_range (count k : Nat) :
    (range t start count).take k = range t start (min k count) := by
  rw [range, ← List.map_take, List.take_range, range]

theorem getElem?_range {count k : Nat} {p : Person} (h : (range t start count)[k]? = some p) :
    k < count ∧ p = ofIndex t (start + k) := by
  obtain ⟨hk, hp⟩ := List.getElem?_eq_some_iff.1 h
  rw [length_range] at hk
  simp only [range, List.getElem_map, List.getElem_range] at hp
  exact ⟨hk, hp.symm⟩

end Person

namespace Sequence

/-! ### Steps in a row -/

/-- The next `n` persons, step by step, and the sequence after them. -/
def steps : Nat → Sequence → Except Overflow (List Person × Sequence)
  | 0, s => .ok ([], s)
  | n + 1, s =>
    match s.next with
    | .error e => .error e
    | .ok (p, s') =>
      match steps n s' with
      | .error e => .error e
      | .ok (ps, s'') => .ok (p :: ps, s'')

/-- The next `n` persons of a sequence exist. -/
def Supplies (s : Sequence) (n : Nat) : Prop := n ≠ 0 → s.index + n ≤ personCount

variable {s : Sequence} {n : Nat}

/-- Persons after the first one are those of the sequence after it. -/
theorem supplies_succ_iff :
    s.Supplies (n + 1) ↔ s.index < personCount ∧ Supplies { s with index := s.index + 1 } n := by
  simp only [Supplies]
  omega

theorem Supplies.of_le {k : Nat} (h : s.Supplies n) (hk : k ≤ n) : s.Supplies k := by
  intro hne
  have hle := h (by omega)
  omega

/-- The condition that is checked, on the largest index of the range. -/
theorem supplies_iff : s.Supplies n ↔ n = 0 ∨ s.index + (n - 1) + 5 ≤ 2 ^ 64 - 1 := by
  have hcount : personCount = 2 ^ 64 - 5 := by decide
  rw [Supplies, hcount]
  omega

theorem steps_of_supplies (h : s.Supplies n) :
    s.steps n = .ok (Person.range s.template s.index n, { s with index := s.index + n }) := by
  induction n generalizing s with
  | zero => rfl
  | succ n ih =>
      obtain ⟨hlt, hrest⟩ := supplies_succ_iff.1 h
      rw [steps, next_of_lt hlt]
      simp only [ih hrest, Person.range_succ]
      rw [Nat.add_assoc, Nat.add_comm 1]

/-- Steps in a row stop at the first person that does not exist. -/
theorem steps_of_not_supplies (h : ¬s.Supplies n) :
    s.steps n = .error ⟨max s.index personCount⟩ := by
  induction n generalizing s with
  | zero => exact absurd (fun hne => absurd rfl hne) h
  | succ n ih =>
      by_cases hlt : s.index < personCount
      · have hrest : ¬Supplies { s with index := s.index + 1 } n :=
          fun hrest => h (supplies_succ_iff.2 ⟨hlt, hrest⟩)
        rw [steps, next_of_lt hlt]
        simp only [ih hrest]
        rw [Nat.max_eq_right (Nat.succ_le_of_lt hlt), Nat.max_eq_right (Nat.le_of_lt hlt)]
      · rw [steps, next_of_not_lt hlt, Nat.max_eq_left (Nat.le_of_not_lt hlt)]

theorem steps_isOk_iff : (∃ x, s.steps n = .ok x) ↔ s.Supplies n := by
  constructor
  · rintro ⟨x, hx⟩
    refine Classical.byContradiction fun hno => ?_
    rw [steps_of_not_supplies hno] at hx
    cases hx
  · intro h
    exact ⟨_, steps_of_supplies h⟩

/-! ### Batches -/

theorem batch_isOk_iff : (∃ b, s.batch n = .ok b) ↔ s.Supplies n := by
  simp only [batch_eq_ok_iff]
  exact ⟨fun ⟨_, h, _⟩ => h, fun h => ⟨_, h, rfl⟩⟩

theorem batch_of_supplies (h : s.Supplies n) : s.batch n = .ok ⟨s, n⟩ :=
  batch_eq_ok_iff.2 ⟨h, rfl⟩

/-- A batch is refused at the last index of its range, or at the current one if that is none. -/
theorem batch_of_not_supplies (h : ¬s.Supplies n) :
    s.batch n =
      .error ⟨if s.index + (n - 1) ≤ 2 ^ 64 - 1 then s.index + (n - 1) else s.index⟩ := by
  rw [supplies_iff, not_or] at h
  have hmax : maxIndex = 2 ^ 64 - 1 := by decide
  have hover : 2 ^ 64 - 1 < s.index + (n - 1) + maxOffset := Nat.lt_of_not_le h.2
  rw [batch, if_neg h.1, hmax]
  by_cases hlast : s.index + (n - 1) ≤ 2 ^ 64 - 1
  · rw [if_neg (Nat.not_lt.2 hlast), if_pos hover, if_pos hlast]
  · rw [if_pos (Nat.lt_of_not_le hlast), if_neg hlast]

end Sequence

namespace Batch

/-- A batch that is over gives nothing, and stays as it is. -/
theorem next_of_over (s : Sequence) : next ⟨s, 0⟩ = (none, ⟨s, 0⟩) := rfl

/-- A batch gives its next person and keeps the others. -/
theorem next_of_lt {s : Sequence} (h : s.index < personCount) (n : Nat) :
    next ⟨s, n + 1⟩ =
      (some (Person.ofIndex s.template s.index), ⟨{ s with index := s.index + 1 }, n⟩) :=
  next_succ (t := s.template) h n

/-- What is taken from a batch, and what is left of it: its end is met only behind its last
person. -/
theorem take_eq {s : Sequence} {n : Nat} (h : s.Supplies n) (k : Nat) :
    take k ⟨s, n⟩ = ((Person.range s.template s.index n).take k, decide (n < k),
      ⟨{ s with index := s.index + min k n }, n - k⟩) := by
  induction k generalizing s n with
  | zero => simp [take]
  | succ k ih =>
      cases n with
      | zero => simp [take, next_of_over]
      | succ n =>
          obtain ⟨hlt, hrest⟩ := Sequence.supplies_succ_iff.1 h
          have hindex : s.index + 1 + min k n = s.index + min (k + 1) (n + 1) := by omega
          simp only [take, next_of_lt hlt, ih hrest, hindex, Person.range_succ,
            List.take_succ_cons, Nat.add_lt_add_iff_right, Nat.add_sub_add_right]

/-- The size of a batch is told exactly. -/
theorem size_of_le {s : Sequence} {n : Nat} (h : n ≤ maxSize) :
    sizeHint ⟨s, n⟩ = (n, some n) ∧ length? ⟨s, n⟩ = some n := by
  simp [length?, sizeHint, h]

end Batch

namespace Sequence

variable {s : Sequence} {n : Nat}

/-- A sequence does not supply more persons than there are sizes. -/
theorem Supplies.le_maxSize (h : s.Supplies n) : n ≤ maxSize := by
  have hsize : personCount ≤ maxSize := by decide
  by_cases hn : n = 0
  · omega
  · have hle := h hn
    omega

/-- **A batch is as many single steps.**  It is given exactly if they all succeed, and however many
persons are taken, they are the first of those that the steps give, the size that is told is the
number of those to come, the end is met behind the last one only, and as many indices are used up
as persons were given.  A batch that is refused names the last index of its range, or the current
one if that is none, and leaves the sequence as it was. -/
theorem batch_agrees_with_steps (s : Sequence) (n : Nat) :
    ((∃ b, s.batch n = .ok b) ↔ ∃ x, s.steps n = .ok x) ∧
      ((∃ b, s.batch n = .ok b) ↔ n = 0 ∨ s.index + (n - 1) + 5 ≤ 2 ^ 64 - 1) ∧
      (∀ b ps s', s.batch n = .ok b → s.steps n = .ok (ps, s') → ps.length = n ∧ ∀ k, ∃ b',
        b.take k = (ps.take k, decide (n < k), b') ∧
        b'.sizeHint = (n - k, some (n - k)) ∧ b'.length? = some (n - k) ∧
        (n ≤ k → b'.next = (none, b')) ∧
        s.answer (.batch n k) =
          (.persons (n, some n) (ps.take k) (decide (n < k)) (some (n - k)),
            { s with index := s.index + min k n })) ∧
      ∀ e, s.batch n = .error e →
        e.index = (if s.index + (n - 1) ≤ 2 ^ 64 - 1 then s.index + (n - 1) else s.index) ∧
        ∀ k, s.answer (.batch n k) = (.refused e, s) := by
  refine ⟨batch_isOk_iff.trans steps_isOk_iff.symm, batch_isOk_iff.trans supplies_iff, ?_, ?_⟩
  · intro b ps s' hbatch hsteps
    obtain ⟨h, rfl⟩ := batch_eq_ok_iff.1 hbatch
    rw [steps_of_supplies h] at hsteps
    obtain ⟨rfl, -⟩ := Prod.mk.inj (Except.ok.inj hsteps)
    refine ⟨Person.length_range .., fun k => ?_⟩
    have hsize := Supplies.le_maxSize h
    obtain ⟨hhint, -⟩ := Batch.size_of_le (s := s) hsize
    obtain ⟨hhint', hlength'⟩ :=
      Batch.size_of_le (s := { s with index := s.index + min k n }) (n := n - k) (by omega)
    refine ⟨_, Batch.take_eq h k, hhint', hlength', ?_, ?_⟩
    · intro hle
      rw [Nat.sub_eq_zero_of_le hle, Batch.next_of_over]
    · simp only [answer, hbatch, Batch.take_eq h, hhint, hlength']
  · intro e herror
    have hno : ¬s.Supplies n := by
      intro h
      rw [batch_of_supplies h] at herror
      cases herror
    refine ⟨?_, fun k => by simp only [answer, herror]⟩
    rw [batch_of_not_supplies hno] at herror
    rw [← Except.error.inj herror]

/-- Of the last eight indices only the first three have persons. -/
theorem batch_agrees_with_steps_at_the_end :
    ∃ ps s', steps 3 { index := 2 ^ 64 - 8 } = .ok (ps, s') ∧
      answer { index := 2 ^ 64 - 8 } (.batch 3 5) =
        (.persons (3, some 3) ps true (some 0), { index := 2 ^ 64 - 5 }) ∧
      answer { index := 2 ^ 64 - 8 } (.batch 4 5) =
        (.refused ⟨2 ^ 64 - 5⟩, { index := 2 ^ 64 - 8 }) := by
  obtain ⟨hagree, -, hgiven, -⟩ := batch_agrees_with_steps { index := 2 ^ 64 - 8 } 3
  obtain ⟨-, -, -, hrefused⟩ := batch_agrees_with_steps { index := 2 ^ 64 - 8 } 4
  have hbatch : batch { index := 2 ^ 64 - 8 } 3 = .ok ⟨{ index := 2 ^ 64 - 8 }, 3⟩ := rfl
  obtain ⟨⟨ps, s'⟩, hsteps⟩ := hagree.1 ⟨_, hbatch⟩
  obtain ⟨hlength, htake⟩ := hgiven _ ps s' hbatch hsteps
  obtain ⟨-, -, -, -, -, hanswer⟩ := htake 5
  rw [List.take_of_length_le (by omega)] at hanswer
  exact ⟨ps, s', hsteps, hanswer, (hrefused _ rfl).2 5⟩

end Sequence

end Roster
