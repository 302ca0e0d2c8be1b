/-
**Cut and extended files.**

The text of an array is over at its closing bracket, wherever brackets and quotes stand within its
values: the reader comes to the bracket without looking at what stands behind it.  So a text that
holds one array and nothing else does so with blanks behind it as well, and with nothing else
behind it.  Read the other way round, a text that goes on with something else than blanks to the
text of one array was none before.  The text of a dataset ends with its bracket; it is spoilt by
every cut.

Main definitions:

* `Roster.Json.Blank` — a text of blanks only.

Main results:

* `Roster.Json.parse_array_append` — what may stand behind the text of an array;
* `Roster.verifyContent_append`, `Roster.verifyContent_of_cut` — the verifier on a text that has
  been extended, and on one that has been cut;
* `Roster.verify_detects_cuts` — **only blanks can be added to a file that the verifier reads to
  the end, and nothing can be cut off a dataset**.
-/

import Roster.Proofs.Dataset.Agreement
import Roster.Proofs.Dataset.InPlace
import Roster.Proofs.Json.Locality

set_option relaxedAutoImplicit false
set_option autoImplicit false

namespace Roster.Json

/-! ### Behind the text of an array -/

/-- A text of blanks only. -/
def Blank (s : Bytes) : Prop := ∀ b ∈ s, isBlank b = true

instance (s : Bytes) : Decidable (Blank s) := List.decidableBAll (fun b => isBlank b = true) s

theorem blank_append_iff {s x : Bytes} : Blank (s ++ x) ↔ Blank s ∧ Blank x :=
  List.forall_mem_append

/-- The end of a text has been reached exactly if only blanks are left. -/
theorem readEnd_eq_ok_iff {s : Bytes} : readEnd s = .ok () ↔ Blank s := by
  unfold readEnd
  split
  · rename_i hs
    refine iff_of_true rfl ?_
    induction s with
    | nil => simp [Blank]
    | cons b s ih =>
        by_cases hb : isBlank b = true
        · rw [skipBlank, if_pos hb] at hs
          exact List.forall_mem_cons.2 ⟨hb, ih hs⟩
        · simp [hb] at hs
  · rename_i b rest hs
    obtain ⟨blanks, -, hb, rfl⟩ := skipBlank_eq_cons hs
    refine iff_of_false (by simp) fun h => ?_
    simp [h b (by simp)] at hb

/-- What is skipped in front of a text does not depend on its end. -/
theorem skipBlank_append_right {s rest : Bytes} {b : UInt8} (h : skipBlank s = b :: rest)
    (x : Bytes) : skipBlank (s ++ x) = b :: (rest ++ x) := by
  obtain ⟨blanks, hblanks, hb, rfl⟩ := skipBlank_eq_cons h
  rw [List.append_assoc, List.cons_append, skipBlank_blanks hblanks hb]

/-- The items of an array are the same whatever stands behind it. -/
theorem items_append {α : Type} {item : Reader α} (hitem : item.Local) {s rest : Bytes}
    {vs : List α} (h : items item s = (vs, .ok rest)) (x : Bytes) :
    items item (s ++ x) = (vs, .ok (rest ++ x)) := by
  obtain ⟨rfl, hend⟩ := Prod.mk.inj h
  obtain ⟨text, rfl, hloop⟩ := foldEntries_extent settled_items hitem (Prod.ext rfl hend)
  rw [List.append_assoc, items, entries, (hloop (rest ++ x)).1]

/-- What may stand behind the text of an array: blanks only, and they do not change the array. -/
theorem parse_array_append {s : Bytes} {vs : List Value} (h : parse s = .ok (.array vs))
    (x : Bytes) (ws : List Value) :
    parse (s ++ x) = .ok (.array ws) ↔ Blank x ∧ ws = vs := by
  obtain ⟨rest, hs, rfl, tail, htail, hend⟩ := (parse_array_iff s vs).1 h
  have hitems := items_append (value_local _) (Prod.ext rfl htail) x
  rw [readEnd_eq_ok_iff] at hend
  rw [parse_array_iff, skipBlank_append_right hs]
  constructor
  · rintro ⟨rest', hrest, hws, tail', htail', hend'⟩
    obtain rfl := (List.cons.inj hrest).2
    rw [hitems] at hws htail'
    obtain rfl := Except.ok.inj htail'
    exact ⟨(blank_append_iff.1 (readEnd_eq_ok_iff.1 hend')).2, hws.symm⟩
  · rintro ⟨hx, rfl⟩
    refine ⟨rest ++ x, rfl, by rw [hitems], tail ++ x, by rw [hitems], ?_⟩
    exact readEnd_eq_ok_iff.2 (blank_append_iff.2 ⟨hend, hx⟩)

end Roster.Json

namespace Roster

open Json

/-! ### Contents -/

/-- The verifier on the text of an array with something behind it. -/
theorem verifyContent_append {t : Template} {expected : Nat} {content : Bytes} {r : Report}
    (h : (verifyContent t expected content).2 = .ok r) (x : Bytes) :
    (Blank x → (verifyContent t expected (content ++ x)).2 = .ok r) ∧
      (¬Blank x → ∃ e, (verifyContent t expected (content ++ x)).2 = .error e) := by
  obtain ⟨vs, hvs, rfl⟩ := (verifyContent_eq_ok_iff t expected content r).1 h
  constructor
  · intro hx
    rw [verifyContent_eq_ok_iff]
    exact ⟨vs, (parse_array_append hvs x vs).2 ⟨hx, rfl⟩, rfl⟩
  · intro hx
    rw [verifyContent_eq_error_iff]
    rintro ⟨ws, hws⟩
    exact hx ((parse_array_append hvs x ws).1 hws).1

/-- A text that is one array as soon as something else than blanks comes behind it is none. -/
theorem verifyContent_of_cut {content x : Bytes} {vs : List Value}
    (h : parse (content ++ x) = .ok (.array vs)) (hx : ¬Blank x) (t : Template) (expected : Nat) :
    ∃ e, (verifyContent t expected content).2 = .error e := by
  rw [verifyContent_eq_error_iff]
  rintro ⟨ws, hws⟩
  exact hx ((parse_array_append hws x vs).1 h).1

/-- Whatever is cut off a document, the closing bracket is. -/
theorem not_blank_of_document {style : Style} {vs : List Value} {content x : Bytes}
    (h : document style vs = content ++ x) (hx : x ≠ []) : ¬Blank x := by
  have hlast : some 0x5d = some (x.getLast hx) := by
    calc some 0x5d = (document style vs).getLast? := by
          rw [document, ← List.cons_append, List.getLast?_concat]
      _ = some (x.getLast hx) := by
          rw [h, List.getLast?_append, List.getLast?_eq_some_getLast hx, Option.some_or]
  intro hblank
  have hbracket := hblank _ (List.getLast_mem hx)
  rw [← Option.some.inj hlast] at hbracket
  revert hbracket
  decide

/-- The verifier finds a fault in every dataset that has been cut, and in every one with something
else than blanks behind it. -/
theorem verifyContent_damaged {style : Style} {s : Template} {count : Nat} {content x : Bytes}
    (h : dataset style s count = content ++ x ∧ x ≠ [] ∨
      content = dataset style s count ++ x ∧ ¬Blank x) (t : Template) (expected : Nat) :
    ∃ e, (verifyContent t expected content).2 = .error e := by
  have hparse := parse_dataset style s count
  rcases h with ⟨hcut, hx⟩ | ⟨rfl, hx⟩
  · rw [hcut] at hparse
    exact verifyContent_of_cut hparse (not_blank_of_document hcut hx) t expected
  · have hok := (verifyContent_eq_ok_iff t expected _ _).2 ⟨_, hparse, rfl⟩
    exact (verifyContent_append hok x).2 hx

/-! ### Files -/

/-- **Only blanks can be added to a file that the verifier reads to the end, and nothing can be
cut off a dataset.**  The first part is about every file, the second about every file that has
been written, from any template in any layout; the verifier may have any template and expect any
number of persons. -/
theorem verify_detects_cuts (t : Template) (path : Path) (expected : Nat) :
    (∀ (w w' : World) (content x : Bytes) (r : Report),
      w.store.content path = .ok content.toByteArray →
      w'.store.content path = .ok (content ++ x).toByteArray →
      ((verify t path expected : StateM World _).run w).1 = .ok r →
        (Blank x → ((verify t path expected : StateM World _).run w').1 = .ok r) ∧
        (¬Blank x → ∃ e,
          ((verify t path expected : StateM World _).run w').1 = .error (.content path e))) ∧
    (∀ (o : PopulateOptions) (file : Path) (count : Nat) (w w' : World) (metrics : Metrics),
      w.store.FileOrNothing file →
      (populate o file count : StateM World (Except PopulateError Metrics)).run w =
        (.ok metrics, w') →
        w'.store.content file = .ok (dataset o.style o.template count).toByteArray ∧
        ∀ (damaged : World) (content x : Bytes),
          damaged.store.content path = .ok content.toByteArray →
          (dataset o.style o.template count = content ++ x ∧ x ≠ [] ∨
            content = dataset o.style o.template count ++ x ∧ ¬Blank x) →
          ∃ e, ((verify t path expected : StateM World _).run damaged).1 =
            .error (.content path e)) := by
  constructor
  · intro w w' content x r hw hw' hr
    rw [verify_run hw, List.toList_data_toByteArray, outcomeOf_eq_ok_iff] at hr
    rw [verify_run hw', List.toList_data_toByteArray, outcomeOf_eq_ok_iff]
    obtain ⟨hblank, hother⟩ := verifyContent_append hr x
    refine ⟨hblank, fun hx => ?_⟩
    obtain ⟨e, he⟩ := hother hx
    exact ⟨_, outcomeOf_eq_error he path⟩
  · intro o file count w w' metrics hfile hrun
    obtain ⟨-, hcontent⟩ := populate_content hfile hrun
    refine ⟨hcontent, ?_⟩
    intro damaged content x hdamaged hx
    rw [verify_run hdamaged, List.toList_data_toByteArray]
    obtain ⟨e, he⟩ := verifyContent_damaged hx t expected
    exact ⟨_, outcomeOf_eq_error he path⟩

/-- Two persons are written to a new file.  With a line break behind them they are read as before;
with a second bracket, or without their last byte, they are not read at all. -/
theorem verify_detects_cuts_two :
    (∃ r, ((verify {} ⟨"data.json"⟩ 2 : StateM World _).run
        (.ofFile (dataset .compact {} 2 ++ [0x0a]))).1 = .ok r ∧ r.matched = 2) ∧
      (∃ e, ((verify {} ⟨"data.json"⟩ 2 : StateM World _).run
        (.ofFile (dataset .compact {} 2 ++ [0x5d]))).1 = .error (.content ⟨"data.json"⟩ e)) ∧
      ∃ metrics w' e,
        (populate {} ⟨"data.json"⟩ 2 : StateM World (Except PopulateError Metrics)).run ⟨.bare, []⟩ =
          (.ok metrics, w') ∧
        w'.store.content ⟨"data.json"⟩ = .ok (dataset .compact {} 2).toByteArray ∧
        ((verify {} ⟨"data.json"⟩ 2 : StateM World _).run
          (.ofFile ((dataset .compact {} 2).dropLast))).1 = .error (.content ⟨"data.json"⟩ e) := by
  obtain ⟨hextended, hdamaged⟩ := verify_detects_cuts {} ⟨"data.json"⟩ 2
  have hread := verify_dataset .compact {} (show 2 ≤ personCount by decide) 2
  have hblank := hextended _ _ _ [0x0a] _ (World.content_ofFile _) (World.content_ofFile _) hread
  have hbracket := hextended _ _ _ [0x5d] _ (World.content_ofFile _) (World.content_ofFile _) hread
  refine ⟨⟨_, hblank.1 (by decide), rfl⟩, hbracket.2 (by decide), ?_⟩
  have hname : ∀ p, Store.bare.resolve p ⟨"data.json"⟩ = .ok (.free [] "data.json") :=
    Store.resolve_bare rfl rfl
  have hfile : Store.bare.FileOrNothing ⟨"data.json"⟩ := by
    intro loc node hnode
    rw [Store.node_eq_ok_iff, hname] at hnode
    cases hnode
  obtain ⟨w', hrun, -⟩ := populate_in_place_of_fits (o := {}) (w := ⟨.bare, []⟩) rfl
    (show 2 ≤ personCount by decide) (hname .make) (.inl rfl) rfl (.of_bound_eq_none rfl _)
  obtain ⟨hwritten, hcut⟩ := hdamaged {} ⟨"data.json"⟩ 2 ⟨.bare, []⟩ w' _ hfile hrun
  have hne : dataset .compact {} 2 ≠ [] := List.cons_ne_nil _ _
  obtain ⟨e, he⟩ := hcut _ _ [(dataset .compact {} 2).getLast hne] (World.content_ofFile _)
    (.inl ⟨(List.dropLast_concat_getLast hne).symm, by simp⟩)
  exact ⟨_, w', e, hrun, hwritten, he⟩

end Roster
