/-
**The sequence of persons.**

Persons are produced one after the other, in the order of their indices.  Indices are 64-bit
words, and so are the indices of the friends a person refers to: a person exists only if the last
of its friends has an index.  A sequence can be stepped person by person, or asked for a *batch*,
whose whole range is checked before its first person is produced.

Main definitions:

* `Roster.Sequence` — a template and the index of the next person;
* `Roster.Sequence.next` — one step;
* `Roster.Sequence.batch` — a checked range of persons, produced by `Batch.next`;
* `Roster.Batch.sizeHint`, `Roster.Batch.length?` — how many of them are still to come;
* `Roster.Overflow` — the one thing that can go wrong.

Main results:

* `Roster.Sequence.next_of_le`, `Roster.Sequence.next_of_gt` — a step succeeds exactly up to
  `maxIndex - 5`.
-/

import Roster.Person

set_option relaxedAutoImplicit false
set_option autoImplicit false

namespace Roster

/-- The largest index. -/
def maxIndex : Nat := UInt64.size - 1

/-- The distance from a person to the last of its friends. -/
def maxOffset : Nat := 5

/-- The person of this index would refer to an index that does not exist. -/
structure Overflow where
  index : Nat
  deriving DecidableEq, Repr

/-- The text of the error. -/
def Overflow.message (e : Overflow) : String :=
  "Record index " ++ toString e.index ++ " is too large: friend references would overflow"

/-- The person of an index, if all its friends have indices. -/
def Person.ofIndex? (t : Template) (index : Nat) : Except Overflow Person :=
  if index + maxOffset ≤ maxIndex then .ok (.ofIndex t index) else .error ⟨index⟩

/-- A sequence of persons: the template, and the index of the next one. -/
structure Sequence where
  template : Template := {}
  /-- The index of the next person. -/
  index : Nat := 0
  deriving DecidableEq, Inhabited, Repr

/-- A range of persons that are still to be produced from a sequence. -/
structure Batch where
  source : Sequence
  /-- How many persons are still to come. -/
  remaining : Nat
  deriving DecidableEq, Inhabited, Repr

/-- The largest size that can be told, on a machine with words of 64 bits. -/
def maxSize : Nat := UInt64.size - 1

namespace Sequence

/-- The next person, and the sequence after it. -/
def next (s : Sequence) : Except Overflow (Person × Sequence) :=
  match Person.ofIndex? s.template s.index with
  | .ok p => .ok (p, { s with index := s.index + 1 })
  | .error e => .error e

theorem next_of_le (s : Sequence) (h : s.index + 5 ≤ maxIndex) :
    s.next = .ok (.ofIndex s.template s.index, { s with index := s.index + 1 }) := by
  simp [next, Person.ofIndex?, maxOffset, h]

theorem next_of_gt (s : Sequence) (h : maxIndex < s.index + 5) :
    s.next = .error ⟨s.index⟩ := by
  simp [next, Person.ofIndex?, maxOffset, Nat.not_le.2 h]

/-- The next `count` persons as a batch.  The last index of the range is checked first; if the
range has no last index, the error names the current one. -/
def batch (s : Sequence) (count : Nat) : Except Overflow Batch :=
  if count = 0 then .ok ⟨s, 0⟩
  else
    let last := s.index + (count - 1)
    if maxIndex < last then .error ⟨s.index⟩
    else if maxIndex < last + maxOffset then .error ⟨last⟩
    else .ok ⟨s, count⟩

end Sequence

namespace Batch

/-- How many persons are still to come: at least so many, and at most so many unless that is more
than can be told. -/
def sizeHint (b : Batch) : Nat × Option Nat :=
  if b.remaining ≤ maxSize then (b.remaining, some b.remaining) else (maxSize, none)

/-- How many persons are still to come, where the two bounds agree. -/
def length? (b : Batch) : Option Nat :=
  if b.sizeHint.2 = some b.sizeHint.1 then some b.sizeHint.1 else none

/-- The next person of a batch, and the batch after it; `none` at its end.  A step that fails uses
up its place. -/
def next (b : Batch) : Option Person × Batch :=
  if b.remaining = 0 then (none, b)
  else
    match b.source.next with
    | .ok (p, s) => (some p, ⟨s, b.remaining - 1⟩)
    | .error _ => (none, ⟨b.source, b.remaining - 1⟩)

/-- A step that gives a person uses up one place. -/
theorem remaining_lt_of_next {b b' : Batch} {p : Person} (h : b.next = (some p, b')) :
    b'.remaining < b.remaining := by
  unfold next at h
  split at h
  · simp at h
  · split at h
    · simp only [Prod.mk.injEq] at h
      rw [← h.2]
      show b.remaining - 1 < b.remaining
      omega
    · simp at h

/-- Up to `k` persons of a batch, the batch after them, and whether its end was met on the way. -/
def take : Nat → Batch → List Person × Bool × Batch
  | 0, b => ([], false, b)
  | k + 1, b =>
    match b.next with
    | (none, b) => ([], true, b)
    | (some p, b) =>
      let (ps, ended, b) := take k b
      (p :: ps, ended, b)

end Batch

end Roster
