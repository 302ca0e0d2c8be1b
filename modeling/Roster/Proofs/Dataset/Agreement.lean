/-
**The verifier reads what the writer has written.**

A dataset that has been written is in the file that the path leads to, byte by byte, whether it was
staged or not, and its text is read back value by value.  So a verification with the same template
finds as many persons as were written and nothing wrong with any of them, however many it was told
to expect.

Main results:

* `Roster.verifyContent_dataset` — the verification of the text of a dataset;
* `Roster.verify_populate` — **what has been written is verified**.
-/

import Roster.Proofs.Dataset.Document
import Roster.Proofs.Dataset.InPlace
import Roster.Proofs.Dataset.Verification

set_option relaxedAutoImplicit false
set_option autoImplicit false

namespace Roster

open Json

/-- The verification of the text of a dataset finds its persons, and nothing wrong with them. -/
theorem verifyContent_dataset (style : Style) (t : Template) {count : Nat}
    (hcount : count ≤ personCount) (expected : Nat) :
    (verifyContent t expected (dataset style t count)).2 =
      .ok { expected, found := count, matched := count } := by
  rw [verifyContent_eq_ok_iff]
  exact ⟨personValues t count, parse_dataset style t count,
    (ofValues_personValues hcount expected).symm⟩

/-- **What has been written is verified.**  The path leads to a file or to nothing before; the
dataset may be written in place or staged. -/
theorem verify_populate {o : PopulateOptions} {path : Path} {count : Nat} {w w' : World}
    {metrics : Metrics} (hfile : w.store.FileOrNothing path)
    (hrun : (populate o path count : StateM World (Except PopulateError Metrics)).run w =
      (.ok metrics, w'))
    (expected : Nat) :
    ∃ r, ((verify o.template path expected : StateM World _).run w').1 = .ok r ∧
      r.expected = expected ∧ r.found = count ∧ r.matched = count ∧ r.mismatched = 0 ∧
      r.rows = [] ∧ (r.isSuccess = true ↔ expected = count) ∧
      (r.missing : Int) = max ((expected : Int) - count) 0 ∧
      (r.unexpected : Int) = max ((count : Int) - expected) 0 := by
  obtain ⟨hcount, hcontent⟩ := populate_content hfile hrun
  have hverify : ((verify o.template path expected : StateM World _).run w').1 =
      .ok { expected, found := count, matched := count } := by
    rw [verify_run hcontent, outcomeOf, List.toList_data_toByteArray,
      verifyContent_dataset _ _ hcount]
  refine ⟨_, hverify, rfl, rfl, rfl, rfl, rfl, ?_, ?_, ?_⟩
  · simp [Report.isSuccess, eq_comm]
  · simp only [Report.missing]
    omega
  · simp only [Report.unexpected]
    omega

/-- Two persons are written to a new file, and three are expected there. -/
theorem verify_populate_new_file :
    ∃ metrics w' r,
      (populate {} ⟨"data.json"⟩ 2 : StateM World (Except PopulateError Metrics)).run ⟨.bare, []⟩ =
        (.ok metrics, w') ∧
      ((verify {} ⟨"data.json"⟩ 3 : StateM World _).run w').1 = .ok r ∧
      r.found = 2 ∧ r.matched = 2 ∧ (r.missing : Int) = 1 := by
  have hfree : ∀ p, Store.bare.resolve p ⟨"data.json"⟩ = .ok (.free [] "data.json") :=
    Store.resolve_bare rfl rfl
  have hfile : Store.bare.FileOrNothing ⟨"data.json"⟩ := by
    intro loc node hnode
    rw [Store.node_eq_ok_iff, hfree] at hnode
    cases hnode
  obtain ⟨w', hrun, -⟩ := populate_in_place_of_fits (o := {}) (w := ⟨.bare, []⟩) rfl
    (show 2 ≤ personCount by decide) (hfree .make) (.inl rfl) rfl (.of_bound_eq_none rfl _)
  obtain ⟨r, hr, hexpected, hfound, hmatched, -, -, -, hmissing, -⟩ := verify_populate hfile hrun 3
  refine ⟨_, w', r, hrun, hr, hfound, hmatched, ?_⟩
  rw [hmissing]
  decide

end Roster
