/-
**The history of a sequence.**

A sequence is called again and again, and each call finds what the earlier ones have left.  What it
finds is said here by the history alone: the template is the one that was set last, and the index of
the next person is the one that was set last, and as much more as persons have been given since.  So
no two persons of a run have the same index unless the index was set in between, and no index is
left out, whichever way the persons were asked for.  A sequence that has come to the end of the
indices stays there until the index is set again.

Main definitions:

* `Roster.Sequence.run` — calls one after the other, with their answers;
* `Roster.Sequence.lastTemplate`, `Roster.Sequence.lastStart`, `Roster.Sequence.givenSince` — what
  a history says about the next person;
* `Roster.Person.ofWord` — the person of an index, its numbers computed in words.

Main results:

* `Roster.Sequence.answer_law` — what one call gives and leaves;
* `Roster.Sequence.told_run` — the sequence after a run, read off the history;
* `Roster.Person.ofWord_eq` — no number of a person that exists is too large for a word;
* `Roster.Sequence.history_law` — **the law of all histories**.
-/

import Mathlib.Algebra.GroupWithZero.Nat
import Roster.Proofs.Person.Batch

set_option relaxedAutoImplicit false
set_option autoImplicit false

namespace Roster

/-! ### Numbers in words -/

/-- The person of an index, with all numbers computed in words, where a sum that is too large begins
again at zero. -/
def Person.ofWord (t : Template) (index : UInt64) : Person where
  text
    | .id => "obj" ++ toString index
    | .name => "person " ++ toString index
    | .address => t.address
    | .description _ => t.description
    | .kind => t.kind
    | .friend k => "<obj" ++ toString (index + (k.val + 1).toUInt64) ++ ">"
    | .company => "<company" ++ toString (index + 1) ++ ">"
    | .owner => t.owner
    | .department => t.department

/-- No number of a person that exists is too large for a word. -/
theorem Person.ofWord_eq (t : Template) {i : Nat} (h : i < personCount) :
    ofWord t i.toUInt64 = ofIndex t i := by
  have hsize : personCount + 5 = 2 ^ 64 := by decide
  have hindex : i.toUInt64.toNat = i := by
    rw [Nat.toUInt64_eq, UInt64.toNat_ofNat']
    exact Nat.mod_eq_of_lt (by omega)
  have hsum : ∀ k ≤ 5, (i.toUInt64 + k.toUInt64).toNat = i + k := by
    intro k hk
    rw [UInt64.toNat_add, hindex, Nat.toUInt64_eq, UInt64.toNat_ofNat',
      Nat.mod_eq_of_lt (show k < 2 ^ 64 by omega)]
    exact Nat.mod_eq_of_lt (by omega)
  refine ext fun f => ?_
  cases f with
  | id =>
      show "obj" ++ toString i.toUInt64.toNat = _
      rw [hindex]
      rfl
  | name =>
      show "person " ++ toString i.toUInt64.toNat = _
      rw [hindex]
      rfl
  | friend k =>
      show "<obj" ++ toString (i.toUInt64 + (k.val + 1).toUInt64).toNat ++ ">" = _
      rw [hsum _ (by omega)]
      simp [ofIndex, reference, identifier, ← String.append_assoc]
  | company =>
      show "<company" ++ toString (i.toUInt64 + (1 : Nat).toUInt64).toNat ++ ">" = _
      rw [hsum 1 (by decide)]
      rfl
  | _ => rfl

/-- The friends of a person are the five that follow it. -/
theorem Person.friends_ofIndex (t : Template) (i : Nat) :
    (ofIndex t i).friends = [1, 2, 3, 4, 5].map fun k => "<obj" ++ toString (i + k) ++ ">" := by
  have hoffsets : [1, 2, 3, 4, 5] = (List.finRange 5).map fun k => k.val + 1 := by decide
  rw [hoffsets, List.map_map]
  refine List.map_congr_left fun k _ => ?_
  simp [ofIndex, reference, identifier, ← String.append_assoc]

namespace Sequence

/-! ### Runs -/

/-- The index that a call sets. -/
def Call.start? : Call → Option Nat
  | renew => some 0
  | startAt index => some index
  | _ => none

/-- The template that a call sets. -/
def Call.template? : Call → Option Template
  | renew => some {}
  | withTemplate t => some t
  | _ => none

/-- Calls with their answers, the last one first. -/
abbrev History := List (Call × Answer)

/-- One more call. -/
def record (x : History × Sequence) (c : Call) : History × Sequence :=
  ((c, (x.2.answer c).1) :: x.1, (x.2.answer c).2)

/-- Calls one after the other on a new sequence: the history, and the sequence after them. -/
def run (cs : List Call) : History × Sequence := cs.foldl record ([], {})

/-- The template that was set last. -/
def lastTemplate (h : History) : Template := (h.findSome? fun x => x.1.template?).getD {}

/-- The index that was set last. -/
def lastStart (h : History) : Nat := (h.findSome? fun x => x.1.start?).getD 0

/-- How many persons have been given since the index was set. -/
def givenSince (h : History) : Nat :=
  ((h.takeWhile fun x => x.1.start?.isNone).map fun x => x.2.given.length).sum

theorem lastTemplate_cons (c : Call) (a : Answer) (h : History) :
    lastTemplate ((c, a) :: h) = c.template?.getD (lastTemplate h) := by
  cases hc : c.template? <;> simp [lastTemplate, hc]

/-- The index of the next person after one more call. -/
theorem nextIndex_cons (c : Call) (a : Answer) (h : History) :
    lastStart ((c, a) :: h) + givenSince ((c, a) :: h) =
      c.start?.getD (lastStart h + givenSince h + a.given.length) := by
  cases hc : c.start? with
  | none =>
      have hstart : lastStart ((c, a) :: h) = lastStart h := by simp [lastStart, hc]
      have hsince : givenSince ((c, a) :: h) = a.given.length + givenSince h := by
        simp [givenSince, hc]
      rw [hstart, hsince, Nat.add_comm a.given.length, ← Nat.add_assoc, Option.getD_none]
  | some start => simp [lastStart, givenSince, hc]

/-! ### One call -/

/-- What a call gives, and which sequence it leaves. -/
structure Lawful (s : Sequence) (c : Call) (a : Answer) (s' : Sequence) : Prop where
  /-- The persons are those of the next indices. -/
  given : a.given = Person.range s.template s.index a.given.length
  /-- All of them exist. -/
  exist : s.Supplies a.given.length
  template : s'.template = c.template?.getD s.template
  index : s'.index = c.start?.getD (s.index + a.given.length)
  /-- A call that is refused changes nothing. -/
  refused : ∀ e, a = .refused e → s' = s

theorem answer_law (s : Sequence) (c : Call) : s.Lawful c (s.answer c).1 (s.answer c).2 := by
  cases c with
  | renew => exact ⟨rfl, absurd rfl, rfl, rfl, by simp [answer]⟩
  | startAt index => exact ⟨rfl, absurd rfl, rfl, rfl, by simp [answer]⟩
  | withTemplate t => exact ⟨rfl, absurd rfl, rfl, rfl, by simp [answer]⟩
  | next =>
      by_cases hlt : s.index < personCount
      · rw [answer, next_of_lt hlt]
        exact ⟨rfl, fun _ => hlt, rfl, rfl, by simp⟩
      · rw [answer, next_of_not_lt hlt]
        exact ⟨rfl, absurd rfl, rfl, rfl, fun _ _ => rfl⟩
  | batch count taken =>
      by_cases h : s.Supplies count
      · have hlength : ((Person.range s.template s.index count).take taken).length =
            min taken count := by simp
        rw [answer, batch_of_supplies h]
        simp only [Batch.take_eq h]
        refine ⟨?_, ?_, rfl, ?_, by simp⟩
        · simp only [Answer.given, Person.take_range, Person.length_range]
        · simp only [Answer.given, hlength]
          exact h.of_le (Nat.min_le_right _ _)
        · simp only [Answer.given, hlength, Call.start?, Option.getD_none]
      · rw [answer, batch_of_not_supplies h]
        exact ⟨rfl, absurd rfl, rfl, rfl, fun _ _ => rfl⟩

/-! ### Runs -/

/-- A history says what the sequence after it is. -/
def Told (x : History × Sequence) : Prop :=
  x.2 = ⟨lastTemplate x.1, lastStart x.1 + givenSince x.1⟩

/-- One more call is told in the history as well. -/
theorem told_record {x : History × Sequence} (h : Told x) (c : Call) : Told (record x c) := by
  obtain ⟨-, -, htemplate, hindex, -⟩ := answer_law x.2 c
  have hold : x.2.template = lastTemplate x.1 := congrArg Sequence.template h
  have hold' : x.2.index = lastStart x.1 + givenSince x.1 := congrArg Sequence.index h
  rw [hold, ← lastTemplate_cons c (x.2.answer c).1] at htemplate
  rw [hold', ← nextIndex_cons] at hindex
  rw [Told, record, ← htemplate, ← hindex]

theorem told_run (cs : List Call) : Told (run cs) := by
  -- the calls still to come are added to any history that tells its sequence
  have hrun : ∀ x, Told x → Told (cs.foldl record x) := by
    induction cs with
    | nil => exact fun x h => h
    | cons c cs ih => exact fun x h => ih _ (told_record h c)
  exact hrun _ rfl

/-- A sequence that has come to the end of the indices stays there until the index is set. -/
theorem index_foldl_record {x : History × Sequence} (hend : personCount ≤ x.2.index)
    {cs : List Call} (hcs : ∀ c ∈ cs, c.start? = none) :
    (cs.foldl record x).2.index = x.2.index := by
  induction cs generalizing x with
  | nil => rfl
  | cons c cs ih =>
      obtain ⟨-, hexist, -, hindex, -⟩ := answer_law x.2 c
      -- whatever the call is, there is no person that it could give
      have hnone : (x.2.answer c).1.given.length = 0 := by
        refine Classical.byContradiction fun hne => ?_
        have hle := hexist hne
        omega
      have hstep : (record x c).2.index = x.2.index := by
        rw [record, hindex, hcs c List.mem_cons_self, hnone]
        rfl
      rw [List.foldl_cons, ih (hstep ▸ hend) fun c hc => hcs c (List.mem_cons_of_mem _ hc), hstep]

/-- **The law of all histories.**  Whatever calls a sequence has had, the next person is the one of
the template that was set last, and of the index that was set last and as many more as persons were
given since; all its numbers are computed without any of them growing too large.  A call that is
refused changes nothing, and behind the last person every step is refused until the index is set
again. -/
theorem history_law (cs : List Call) :
    (run cs).2 = ⟨lastTemplate (run cs).1, lastStart (run cs).1 + givenSince (run cs).1⟩ ∧
      (∀ c k p, ((run cs).2.answer c).1.given[k]? = some p → ∃ i,
        i = lastStart (run cs).1 + givenSince (run cs).1 + k ∧ i ≤ 2 ^ 64 - 6 ∧
        p = Person.ofIndex (lastTemplate (run cs).1) i ∧
        p = Person.ofWord (lastTemplate (run cs).1) i.toUInt64 ∧
        p.text .id = "obj" ++ toString i ∧ p.text .name = "person " ++ toString i ∧
        p.friends = [1, 2, 3, 4, 5].map (fun k => "<obj" ++ toString (i + k) ++ ">") ∧
        p.text .company = "<company" ++ toString (i + 1) ++ ">") ∧
      (∀ c e, ((run cs).2.answer c).1 = .refused e → ((run cs).2.answer c).2 = (run cs).2) ∧
      (2 ^ 64 - 6 < (run cs).2.index → ∀ cs', (∀ c ∈ cs', c.start? = none) →
        (run (cs ++ cs')).2.answer .next =
          (.refused ⟨(run cs).2.index⟩, (run (cs ++ cs')).2)) := by
  have hcount : personCount = 2 ^ 64 - 5 := by decide
  refine ⟨told_run cs, ?_, ?_, ?_⟩
  · intro c k p hp
    obtain ⟨hgiven, hexist, -⟩ := answer_law (run cs).2 c
    rw [hgiven] at hp
    obtain ⟨hk, rfl⟩ := Person.getElem?_range _ _ hp
    -- a person that is given exists, so its numbers are those of a word
    have hsome := hexist (Nat.ne_of_gt (Nat.zero_lt_of_lt hk))
    have hlt : (run cs).2.index + k < personCount := by omega
    have htemplate : (run cs).2.template = lastTemplate (run cs).1 :=
      congrArg Sequence.template (told_run cs)
    have hindex : (run cs).2.index = lastStart (run cs).1 + givenSince (run cs).1 :=
      congrArg Sequence.index (told_run cs)
    rw [htemplate, ← hindex]
    refine ⟨_, rfl, by omega, rfl, (Person.ofWord_eq _ hlt).symm, rfl, rfl, ?_, rfl⟩
    exact Person.friends_ofIndex _ _
  · exact fun c => (answer_law (run cs).2 c).refused
  · intro hend cs' hcs'
    have hle : personCount ≤ (run cs).2.index := by omega
    have hindex : (run (cs ++ cs')).2.index = (run cs).2.index := by
      rw [run, List.foldl_append]
      exact index_foldl_record hle hcs'
    have hno : ¬(run (cs ++ cs')).2.index < personCount := by omega
    rw [answer, next_of_not_lt hno, hindex]

/-- The last person is given once, and then no call but one that sets the index helps. -/
theorem history_law_at_the_end :
    (∃ p, ((run [.startAt (2 ^ 64 - 6)]).2.answer .next).1.given[0]? = some p ∧
        p.friends.getLast? = some "<obj18446744073709551615>") ∧
      (run [.startAt (2 ^ 64 - 6), .next, .withTemplate {}, .next]).2.answer .next =
        (.refused ⟨2 ^ 64 - 5⟩, { index := 2 ^ 64 - 5 }) := by
  constructor
  · obtain ⟨-, hgiven, -⟩ := history_law [.startAt (2 ^ 64 - 6)]
    have hp : ((run [.startAt (2 ^ 64 - 6)]).2.answer .next).1.given[0]? =
        some (Person.ofIndex {} (2 ^ 64 - 6)) := rfl
    obtain ⟨i, hi, -, -, -, -, -, hfriends, -⟩ := hgiven _ _ _ hp
    obtain rfl : i = 2 ^ 64 - 6 := hi
    exact ⟨_, hp, by rw [hfriends]; decide⟩
  · obtain ⟨-, -, -, hend⟩ := history_law [.startAt (2 ^ 64 - 6), .next]
    exact hend (by decide) [.withTemplate {}, .next] (by simp [Call.start?])

end Sequence

end Roster
