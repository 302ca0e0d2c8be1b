/-
**Staging is all or nothing.**

Writing a staged dataset can fail before the staging file is made, while it is made, at any byte of
the dataset, and when the file is moved to its place.  None of these failures leaves a trace.  What
is asked for after that, the size of the file in its place, can fail only where the path does not
lead to what it names: along a link that the file has taken the place of.

Main results:

* `Roster.Renamed.size` — the size of a dataset that was moved along an ordinary path can be read;
* `Roster.populate_staged_all_or_nothing` — **after an error nothing has changed, and after a
  success only the entry that the path names**.
-/

import Roster.Proofs.Dataset.Refinement

set_option relaxedAutoImplicit false
set_option autoImplicit false

namespace Roster

open Json

variable {o : PopulateOptions} {count : Nat} {path : Path} {w : World}

/-- The size of a dataset that was moved along an ordinary path can be read. -/
theorem Renamed.size {before after : Store} {text : Bytes} (h : Renamed before path text after)
    (hordinary : before.Ordinary path) : after.size path = .ok text.length :=
  (h.placed hordinary).size

/-- **Staging is all or nothing.**  After an error the store is what it was, and after a success it
differs in one entry, the one that the path names, which is the dataset as a file.  Where the path
names a link or a device, this is said of runs for which the size of the file can be read in the store
that the move has left, if there was one. -/
theorem populate_staged_all_or_nothing {w' : World} {r : Except PopulateError Metrics}
    (hatomic : o.atomic = true)
    (hmetadata : ¬w.store.Ordinary path → ∀ after,
      Renamed w.store path (dataset o.style o.template count) after → ∃ k, after.size path = .ok k)
    (hrun : (populate o path count : StateM World (Except PopulateError Metrics)).run w =
      (r, w')) :
    (∀ e, r = .error e → w'.store = w.store) ∧
      ∀ m, r = .ok m → ∃ dest mode,
        w'.store =
          w.store.put dest (.file (dataset o.style o.template count).toByteArray mode) ∧
        w'.store.resolveName path =
          .ok (.found dest (.file (dataset o.style o.template count).toByteArray mode)) := by
  have hread : ∀ after, Renamed w.store path (dataset o.style o.template count) after →
      ∃ k, after.size path = .ok k := by
    intro after hrenamed
    by_cases hordinary : w.store.Ordinary path
    · exact ⟨_, hrenamed.size hordinary⟩
    · exact hmetadata hordinary after hrenamed
  have houtcome := populate_staged_outcome (w := w) (o := o) hatomic count path
  rw [hrun] at houtcome
  cases houtcome with
  | ok hdone =>
      obtain ⟨-, hrenamed, hsize⟩ := hdone
      obtain ⟨dest, mode, hstore, -, hname⟩ := hrenamed.leads hsize
      refine ⟨fun e he => ?_, fun m _ => ⟨dest, mode, hstore, hname⟩⟩
      cases he
  | error hfailed =>
      refine ⟨fun e _ => ?_, fun m hm => ?_⟩
      · rcases hfailed with hsame | ⟨hrenamed, cause, hunread⟩
        · exact hsame
        · -- the size of a complete dataset would have been read
          obtain ⟨k, hk⟩ := hread _ hrenamed
          cases hk.symm.trans hunread
      · cases hm

/-- Two persons are staged for a new file, and they are there afterwards; none are staged for a
directory by another name, which cannot be replaced. -/
theorem populate_staged_new_file :
    (∃ w', (populate { atomic := true } ⟨"data.json"⟩ 2 :
          StateM World (Except PopulateError Metrics)).run ⟨.bare, []⟩ =
        (.ok { rows := 2, bytes := (dataset .compact {} 2).length }, w') ∧
      w'.store =
        Store.bare.put ["data.json"] (.file (dataset .compact {} 2).toByteArray 0o644) ∧
      ∃ dest mode, w'.store.resolveName ⟨"data.json"⟩ =
        .ok (.found dest (.file (dataset .compact {} 2).toByteArray mode))) ∧
      ∃ e w', (populate { atomic := true } ⟨"d/."⟩ 0 :
          StateM World (Except PopulateError Metrics)).run ⟨.oneDirectory, []⟩ = (.error e, w') ∧
        w'.store = .oneDirectory := by
  refine ⟨?_, ?_⟩
  · have hs : Store.bare.WellFormed := Store.wellFormed_of_root rfl rfl
    have hname : Store.bare.resolve .name ⟨"data.json"⟩ = .ok (.free [] "data.json") :=
      Store.resolve_bare rfl rfl .name
    have hordinary : Store.bare.Ordinary ⟨"data.json"⟩ := by
      intro loc node hfound
      cases hname.symm.trans hfound
    have hplace : Store.bare.IsPlace ["data.json"] := .inl rfl
    obtain ⟨staged, staging, hstage⟩ := hs.stage_beside hname hplace (by decide +kernel)
      fun _ _ => rfl
    obtain ⟨w', hrun, hstore⟩ := populate_staged_of_fits (o := { atomic := true })
      (w := ⟨.bare, []⟩) rfl (by decide : 2 ≤ personCount) hs hname hplace rfl
      ⟨staging, _, hstage⟩ (.of_bound_eq_none rfl _)
    obtain ⟨dest, mode, -, hentry⟩ := (populate_staged_all_or_nothing rfl
      (fun hspecial => (hspecial hordinary).elim) hrun).2 _ rfl
    exact ⟨w', hrun, hstore, dest, mode, hentry⟩
  · have hname : Store.oneDirectory.resolve .name ⟨"d/."⟩ =
        .ok (.found ["d"] (.directory Store.directoryMode)) := by
      have hsteps : Path.steps ⟨"d/."⟩ = ["d", "."] := by decide
      rw [Store.resolve_eq_ok_iff, hsteps]
      refine ⟨Store.check_eq_ok (by decide) (by decide) (by decide), ?_⟩
      refine .directory ⟨by decide, by simp, by decide⟩ rfl (.stay (.inr rfl) ?_)
      exact .here rfl
    have hordinary : Store.oneDirectory.Ordinary ⟨"d/."⟩ := by
      intro loc node hfound
      cases hname.symm.trans hfound
      exact id
    rcases hrun : (populate { atomic := true } ⟨"d/."⟩ 0 :
      StateM World (Except PopulateError Metrics)).run ⟨.oneDirectory, []⟩ with ⟨r, w'⟩
    have hlaw := populate_staged_all_or_nothing rfl
      (fun hspecial => (hspecial hordinary).elim) hrun
    cases r with
    | ok m =>
        -- what is there is no place for a file
        obtain ⟨-, -, target, hname', hplace, -⟩ :=
          populate_done Store.wellFormed_oneDirectory hordinary hrun
        obtain rfl := Except.ok.inj (hname.symm.trans hname')
        rcases hplace with hfree | ⟨content, mode, hfile⟩
        · cases hfree
        · cases hfile
    | error e => exact ⟨e, w', rfl, hlaw.1 e rfl⟩

end Roster
