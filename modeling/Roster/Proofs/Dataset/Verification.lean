/-
**What the verifier accepts.**

The verifier reads a content value by value and never holds more than one of them; the reader of
whole texts holds them all.  Both walk over the same items (`Roster.Json.foldItems_eq`), so the
verifier comes to an end exactly where the reader finds one array and nothing after it, and its
report is then that on the values of the array.

Main definitions:

* `Roster.World.ofFile` — a world with one file, to verify a text in;
* `Roster.HoldsPersons` — a text is one array of so many persons of a template.

Main results:

* `Roster.verifyContent_eq_ok_iff` — the verifier gives a report exactly on the text of one array,
  and which one;
* `Roster.verify_eq_ok_iff` — the same for files;
* `Roster.verify_accepts_iff` — **a file is accepted exactly if it holds the expected persons, and
  refused as malformed exactly if it is not one array**.
-/

import Roster.Dataset.Verify
import Roster.Proofs.Dataset.Document
import Roster.Proofs.Disk
import Roster.Proofs.Json.Entries

set_option relaxedAutoImplicit false
set_option autoImplicit false

namespace Roster

open Json

/-! ### Contents -/

/-- The verifier gives a report exactly on the text of one array, and it is the report on the
values of the array. -/
theorem verifyContent_eq_ok_iff (t : Template) (expected : Nat) (content : Bytes) (r : Report) :
    (verifyContent t expected content).2 = .ok r ↔
      ∃ vs, parse content = .ok (.array vs) ∧ r = Report.ofValues t expected vs := by
  simp only [parse_array_iff]
  unfold verifyContent
  cases hs : skipBlank content with
  | nil => simp
  | cons b rest =>
      by_cases hb : b = 0x5b
      · subst hb
        cases hitems : items (value (maxDepth - 1)) rest with
        | mk vs result =>
            cases result with
            | error e => simp [foldItems_eq, hitems, IsArrayTail]
            | ok tail =>
                cases hend : readEnd tail with
                | error e => simp [foldItems_eq, hitems, hend, IsArrayTail]
                | ok u =>
                    simp [foldItems_eq, hitems, hend, IsArrayTail, Verification.run_report,
                      eq_comm]
      · simp [hb]

/-- The verifier finds a fault exactly in a text that is not one array. -/
theorem verifyContent_eq_error_iff (t : Template) (expected : Nat) (content : Bytes) :
    (∃ e, (verifyContent t expected content).2 = .error e) ↔
      ¬∃ vs, parse content = .ok (.array vs) := by
  cases h : (verifyContent t expected content).2 with
  | error e =>
      refine iff_of_true ⟨e, rfl⟩ ?_
      rintro ⟨vs, hvs⟩
      have hok := (verifyContent_eq_ok_iff t expected content _).2 ⟨vs, hvs, rfl⟩
      rw [h] at hok
      simp at hok
  | ok r =>
      obtain ⟨vs, hvs, -⟩ := (verifyContent_eq_ok_iff t expected content r).1 h
      refine iff_of_false ?_ fun hno => hno ⟨vs, hvs⟩
      rintro ⟨e, he⟩
      simp at he

/-! ### Files -/

/-- The outcome of the verification of a content that has been read from a file. -/
def outcomeOf (t : Template) (path : Path) (expected : Nat) (content : Bytes) :
    Except VerifyError Report :=
  match (verifyContent t expected content).2 with
  | .error e => .error (.content path (.malformed e.cause (e.position .stream content)))
  | .ok report => .ok report

/-- The verification of a file is that of its content. -/
theorem verify_run {t : Template} {path : Path} {expected : Nat} {w : World}
    {content : ByteArray} (h : w.store.content path = .ok content) :
    ((verify t path expected : StateM World _).run w).1 =
      outcomeOf t path expected content.data.toList := by
  simp only [verify, run_bind, World.run_note, World.run_content, World.store_noted, h,
    outcomeOf]
  cases (verifyContent t expected content.data.toList).2 <;> rfl

theorem outcomeOf_eq_ok_iff {t : Template} {path : Path} {expected : Nat} {content : Bytes}
    {r : Report} :
    outcomeOf t path expected content = .ok r ↔ (verifyContent t expected content).2 = .ok r := by
  unfold outcomeOf
  split
  · rename_i e h
    simp [h]
  · rename_i report h
    simp [h]

/-- A fault in the content of a file is reported as one of the file. -/
theorem outcomeOf_eq_error {t : Template} {expected : Nat} {content : Bytes} {e : Fault}
    (h : (verifyContent t expected content).2 = .error e) (path : Path) :
    outcomeOf t path expected content =
      .error (.content path (.malformed e.cause (e.position .stream content))) := by
  rw [outcomeOf, h]

/-- The verification of a file gives a report exactly if the file is one array, and it is the report
on the values of the array. -/
theorem verify_eq_ok_iff {t : Template} {path : Path} {expected : Nat} {w : World}
    {content : ByteArray} {r : Report} (h : w.store.content path = .ok content) :
    ((verify t path expected : StateM World _).run w).1 = .ok r ↔
      ∃ vs, parse content.data.toList = .ok (.array vs) ∧ r = Report.ofValues t expected vs := by
  rw [verify_run h, outcomeOf_eq_ok_iff, verifyContent_eq_ok_iff]

/-- A world with one file, `data.json`. -/
def World.ofFile (content : Bytes) : World :=
  ⟨Store.bare.put ["data.json"] (.file content.toByteArray Store.fileMode), []⟩

theorem World.content_ofFile (content : Bytes) :
    (World.ofFile content).store.content ⟨"data.json"⟩ = .ok content.toByteArray := by
  have henters : Store.Enters .use "data.json" [] := ⟨by decide, by simp, by decide⟩
  exact Store.content_of_node (Store.node_of_name
    (Store.check_eq_ok (by decide) (by decide) (by decide)) (by decide) henters rfl)

/-- The verification of a document gives the report on its values. -/
theorem verify_document (style : Style) {vs : List Value}
    (h : ∀ v ∈ vs, Readable (maxDepth - 1) v) (t : Template) (expected : Nat) :
    ((verify t ⟨"data.json"⟩ expected : StateM World _).run (.ofFile (document style vs))).1 =
      .ok (Report.ofValues t expected (vs.map Value.normal)) := by
  rw [verify_eq_ok_iff (World.content_ofFile _), List.toList_data_toByteArray]
  exact ⟨_, parse_document style h, rfl⟩

/-- The verification of a dataset finds its persons, and nothing wrong with them. -/
theorem verify_dataset (style : Style) (t : Template) {count : Nat} (hcount : count ≤ personCount)
    (expected : Nat) :
    ((verify t ⟨"data.json"⟩ expected : StateM World _).run (.ofFile (dataset style t count))).1 =
      .ok { expected, found := count, matched := count } := by
  rw [verify_eq_ok_iff (World.content_ofFile _), List.toList_data_toByteArray]
  exact ⟨_, parse_dataset style t count, (ofValues_personValues hcount expected).symm⟩

/-! ### Acceptance -/

/-- A text is one array of so many persons of a template: its value at each position is an object
with the keys and the texts of the person of that position, and with nothing else. -/
def HoldsPersons (t : Template) (count : Nat) (content : Bytes) : Prop :=
  ∃ vs, parse content = .ok (.array vs) ∧ vs.length = count ∧
    ∀ i (h : i < vs.length), ∃ p, Person.ofIndex? t i = .ok p ∧ p.Matches vs[i]

/-- **A file is accepted exactly if it holds the expected persons, and refused as malformed
exactly if it is not one array.** -/
theorem verify_accepts_iff (t : Template) (path : Path) (expected : Nat) (w : World)
    (content : ByteArray) (h : w.store.content path = .ok content) :
    ((∃ r, ((verify t path expected : StateM World _).run w).1 = .ok r ∧ r.isSuccess = true) ↔
        HoldsPersons t expected content.data.toList) ∧
      ((∃ e, ((verify t path expected : StateM World _).run w).1 = .error (.content path e)) ↔
        ¬∃ vs, parse content.data.toList = .ok (.array vs)) := by
  rw [verify_run h]
  refine ⟨?_, ?_⟩
  · constructor
    · rintro ⟨r, hr, hsuccess⟩
      unfold outcomeOf at hr
      split at hr
      · simp at hr
      rename_i report hreport
      obtain rfl := Except.ok.inj hr
      obtain ⟨vs, hvs, rfl⟩ := (verifyContent_eq_ok_iff _ _ _ _).1 hreport
      exact ⟨vs, hvs, (Report.isSuccess_ofValues t expected vs).1 hsuccess⟩
    · rintro ⟨vs, hvs, hmatch⟩
      have hok := (verifyContent_eq_ok_iff t expected _ _).2 ⟨vs, hvs, rfl⟩
      refine ⟨Report.ofValues t expected vs, by rw [outcomeOf, hok], ?_⟩
      exact (Report.isSuccess_ofValues t expected vs).2 hmatch
  · rw [← verifyContent_eq_error_iff t expected]
    constructor
    · rintro ⟨e, he⟩
      unfold outcomeOf at he
      split at he
      · rename_i fault hfault
        exact ⟨fault, hfault⟩
      · simp at he
    · rintro ⟨fault, hfault⟩
      exact ⟨_, by rw [outcomeOf, hfault]⟩

/-- A file with the first two persons is accepted. -/
theorem verify_accepts_two :
    let w : World :=
      ⟨Store.bare.put ["data.json"] (.file (dataset .spaced {} 2).toByteArray Store.fileMode), []⟩
    (∃ r, ((verify {} ⟨"data.json"⟩ 2 : StateM World _).run w).1 = .ok r ∧ r.isSuccess = true) ∧
      ¬∃ e, ((verify {} ⟨"data.json"⟩ 2 : StateM World _).run w).1 =
        .error (.content ⟨"data.json"⟩ e) := by
  intro w
  have hname : Store.IsName "data.json" := by
    unfold Store.IsName
    decide
  have hcontent : w.store.content ⟨"data.json"⟩ = .ok (dataset .spaced {} 2).toByteArray :=
    Store.content_of_node (Store.node_of_name
      (Store.check_eq_ok (by decide) (by decide) (by decide)) (by decide)
      ⟨hname, by simp, by decide⟩ rfl)
  have hparse := parse_dataset .spaced {} 2
  have hcount : 2 ≤ personCount := by decide
  have hlaw := verify_accepts_iff {} ⟨"data.json"⟩ 2 w _ hcontent
  rw [List.toList_data_toByteArray] at hlaw
  refine ⟨hlaw.1.2 ⟨_, hparse, length_personValues {} 2, personValues_matches hcount⟩, ?_⟩
  intro herror
  exact hlaw.2.1 herror ⟨_, hparse⟩

end Roster
