/-
**Calls on a sequence.**

A sequence is used by calls: it is made anew, given another template or another index to go on
from, and asked for its next person or for a batch, of which as many persons are taken as the
caller likes before the rest is dropped.  A call that is refused leaves the sequence as it was, and
persons of a batch that are not taken are not used up.

Main definitions:

* `Roster.Sequence.Call`, `Roster.Sequence.Answer` — the calls, and what is seen of each;
* `Roster.Sequence.answer` — **the answer to a call, and the sequence after it**.
-/

import Roster.Person.Sequence

set_option relaxedAutoImplicit false
set_option autoImplicit false

namespace Roster.Sequence

/-- A call on a sequence. -/
inductive Call where
  /-- A new sequence takes the place of this one. -/
  | renew
  /-- The index of the next person is set. -/
  | startAt (index : Nat)
  /-- The template is replaced. -/
  | withTemplate (t : Template)
  /-- One step. -/
  | next
  /-- A batch of `count` persons, of which at most `taken` are taken. -/
  | batch (count taken : Nat)
  deriving DecidableEq, Repr

/-- What is seen of a call. -/
inductive Answer where
  /-- The call gives nothing. -/
  | done
  | person (p : Person)
  /-- The persons taken from a batch: the size of the batch before the first of them, whether its
  end was met on the way, and how many persons are left. -/
  | persons (size : Nat × Option Nat) (ps : List Person) (ended : Bool) (left : Option Nat)
  /-- There are no such persons. -/
  | refused (e : Overflow)
  deriving DecidableEq

/-- The persons that an answer gives. -/
def Answer.given : Answer → List Person
  | done => []
  | person p => [p]
  | persons _ ps _ _ => ps
  | refused _ => []

/-- **The answer to a call, and the sequence after it.** -/
def answer (s : Sequence) : Call → Answer × Sequence
  | .renew => (.done, {})
  | .startAt index => (.done, { s with index })
  | .withTemplate template => (.done, { s with template })
  | .next =>
    match s.next with
    | .error e => (.refused e, s)
    | .ok (p, s') => (.person p, s')
  | .batch count taken =>
    match s.batch count with
    | .error e => (.refused e, s)
    | .ok b =>
      match b.take taken with
      | (ps, ended, b') => (.persons b.sizeHint ps ended b'.length?, b'.source)

end Roster.Sequence
