/-
**What writing a dataset changes.**

A dataset is written to a path that names a file, a directory or nothing; links and devices are
left aside.  If that succeeds, the path named a place for a file, and there is the dataset now, in
either mode; nothing else has changed.  If it fails, a staged dataset has changed nothing at all,
and one that is written in place nothing but the file at the place that the path names.

Main definitions:

* `Roster.Node.IsSpecial` — links and devices;
* `Roster.Store.Ordinary` — the paths that name neither;
* `Roster.Placed`, `Roster.Confined` — what a success and a failure may have changed.

Main results:

* `Roster.Store.Ordinary.create` — where such a path can be opened it names a place;
* `Roster.Renamed.placed` — what was staged and moved along such a path is at a place;
* `Roster.populate_effect` — **what writing a dataset changes**, in either mode.
-/

import Roster.Proofs.Dataset.InPlace

set_option relaxedAutoImplicit false
set_option autoImplicit false

namespace Roster

open Json

/-! ### Ordinary paths -/

/-- Links and devices. -/
def Node.IsSpecial : Node → Prop
  | .file _ _ => False
  | .directory _ => False
  | _ => True

namespace Store

variable {s : Store} {path : Path} {target : Target}

/-- The path names no link and no device. -/
def Ordinary (s : Store) (path : Path) : Prop :=
  ∀ loc node, s.resolve .name path = .ok (.found loc node) → ¬node.IsSpecial

/-- What an ordinary path names is a directory, or a place for a file. -/
theorem Ordinary.place (h : s.Ordinary path) (hname : s.resolve .name path = .ok target)
    (hfile : ∀ l mode, target ≠ .found l (.directory mode)) : s.IsPlace target.location := by
  have hget := (resolve_eq_ok_iff.1 hname).2.get?_location
  cases target with
  | free parent name => exact .inl hget
  | found loc node =>
      have hordinary := h loc node hname
      cases node with
      | file content mode => exact .inr ⟨content, mode, hget⟩
      | directory mode => exact (hfile loc mode rfl).elim
      | _ => exact (hordinary trivial).elim

/-- An ordinary path names what it leads to. -/
theorem Ordinary.name_of_use (h : s.Ordinary path) (huse : s.resolve .use path = .ok target) :
    s.resolve .name path = .ok target := by
  rw [resolve_eq_ok_iff] at huse ⊢
  refine ⟨huse.1, ?_⟩
  rcases huse.2.name_or_link with hname | ⟨l, link, hlink⟩
  · exact hname
  · have hfound : s.resolve .name path = .ok (.found l (.link link)) :=
      resolve_eq_ok_iff.2 ⟨huse.1, hlink⟩
    exact (h l _ hfound trivial).elim

/-- Where an ordinary path can be opened for writing it names a place for a file. -/
theorem Ordinary.create (h : s.Ordinary path) :
    (∃ e, s.create path = .error e) ∨
      ∃ target, s.resolve .name path = .ok target ∧ s.resolve .make path = .ok target ∧
        s.IsPlace target.location ∧ s.grant .write target.location = .ok () := by
  cases hmake : s.resolve .make path with
  | error e =>
      refine .inl ⟨e, ?_⟩
      rw [Store.create, hmake]
      rfl
  | ok target =>
      have hname := h.name_of_use (resolve_use_of_make hmake)
      by_cases hdir : ∃ l mode, target = .found l (.directory mode)
      · obtain ⟨l, mode, rfl⟩ := hdir
        refine .inl ⟨.isDirectory, ?_⟩
        rw [Store.create, hmake]
        rfl
      · have hplace : s.IsPlace target.location := by
          refine h.place hname ?_
          rintro l mode rfl
          exact hdir ⟨l, mode, rfl⟩
        cases hgrant : s.grant .write target.location with
        | error e => exact .inl ⟨e, create_refused hmake hplace hgrant⟩
        | ok granted => exact .inr ⟨target, hname, rfl, hplace, hgrant⟩

/-- A path stays ordinary when a file is put somewhere. -/
theorem Ordinary.put (h : s.Ordinary path) (dest : Location) (content : ByteArray) (mode : Nat) :
    (s.put dest (.file content mode)).Ordinary path := by
  intro loc node hname hspecial
  rw [resolve_eq_ok_iff] at hname
  have hne : loc ≠ dest := by
    refine ne_of_get?_put hname.2.get?_location ?_
    rintro c m rfl
    exact hspecial
  exact h loc node (resolve_eq_ok_iff.2 ⟨hname.1, hname.2.of_put hne⟩) hspecial

end Store

/-! ### Changes -/

/-- A text has been put as a file at a place, where the path leads now. -/
def Placed (before : Store) (path : Path) (text : Bytes) (after : Store) : Prop :=
  ∃ loc mode, before.IsPlace loc ∧ after = before.put loc (.file text.toByteArray mode) ∧
    after.node path = .ok (loc, .file text.toByteArray mode)

/-- Nothing has changed, or only the file at the place that the path names. -/
def Confined (before : Store) (path : Path) (after : Store) : Prop :=
  after = before ∨ ∃ target content mode, before.resolve .name path = .ok target ∧
    before.IsPlace target.location ∧ after = before.put target.location (.file content mode)

/-- The size of a text that has been placed can be read. -/
theorem Placed.size {before after : Store} {path : Path} {text : Bytes}
    (h : Placed before path text after) : after.size path = .ok text.length := by
  obtain ⟨loc, mode, -, -, hnode⟩ := h
  rw [Store.size_of_node hnode, List.size_toByteArray]

variable {o : PopulateOptions} {count : Nat} {b : Batch} {path : Path} {w : World}

/-! ### In place -/

/-- A batch that is written in place is placed, or nothing has changed elsewhere. -/
theorem writeInPlace_effect (hb : Sequence.batch { template := o.template } count = .ok b)
    (hordinary : w.store.Ordinary path) :
    Outcome
      (fun rows w' => rows = count ∧
        Placed w.store path (dataset o.style o.template count) w'.store)
      (fun _ w' => Confined w.store path w'.store)
      ((writeInPlace o b path : StateM World (Except FileFault Nat)).run w) := by
  rcases hordinary.create with ⟨e, hcreate⟩ | ⟨target, hname, hmake, hplace, hgrant⟩
  · have hrun : (Disk.create path : StateM World _).run w = (.error e, w) :=
      World.run_create_of_error hcreate
    unfold writeInPlace
    rw [run_bind, hrun]
    exact .error (.inl rfl)
  · refine (writeInPlace_at hb hmake hplace hgrant).mono ?_ ?_
    · rintro rows w' ⟨hrows, hstore, -⟩
      refine ⟨hrows, target.location, _, hplace, hstore, ?_⟩
      rw [hstore]
      exact Store.node_put hname hplace _ _
    · rintro e w' ⟨-, k, -, -, hstore⟩
      exact .inr ⟨target, _, _, hname, hplace, hstore⟩

/-! ### Staged -/

/-- A file that has been moved from a free location to where an ordinary path names is at a place,
with its permission bits, and the path leads to it. -/
theorem OpenFile.moved_of_rename {f : OpenFile} {text : Bytes} {after : Store}
    (hfree : f.base.get? f.loc = none) (hordinary : f.base.Ordinary path)
    (h : (f.holding text).rename f.loc path = .ok after) :
    ∃ loc, f.base.IsPlace loc ∧ after = f.base.put loc (.file text.toByteArray f.mode) ∧
      after.node path = .ok (loc, .file text.toByteArray f.mode) := by
  obtain ⟨target, htarget, hends, hfile, rfl⟩ := OpenFile.rename_holding hfree h
  rw [Store.resolveName_eq_ok_iff, ← Store.Path.steps_of_not_endsWithSlash hends] at htarget
  obtain ⟨hcheck, hleads⟩ := htarget
  have hplace : f.base.IsPlace target.location := by
    by_cases hsame : target.location = f.loc
    · exact .inl (hsame ▸ hfree)
    · -- the staging file was not on the way, so the path named this before it was made
      refine hordinary.place (Store.resolve_eq_ok_iff.2 ⟨hcheck, hleads.of_put hsame⟩) hfile
  refine ⟨target.location, hplace, rfl, ?_⟩
  rw [Store.node_eq_ok_iff, Store.resolve_eq_ok_iff]
  exact ⟨hcheck, hleads.use_moved hplace _ _⟩

/-- What was staged and moved along an ordinary path has been placed. -/
theorem Renamed.placed {before after : Store} {text : Bytes} (h : Renamed before path text after)
    (hordinary : before.Ordinary path) : Placed before path text after := by
  obtain ⟨loc, hstages, hrename⟩ := h
  obtain ⟨dest, hplace, hstore, hnode⟩ := OpenFile.moved_of_rename (f := before.stagedAt path loc)
    hstages.free hordinary hrename
  exact ⟨dest, _, hplace, hstore, hnode⟩

/-- A batch that is staged is placed, or nothing has changed. -/
theorem writeStaged_effect (hb : Sequence.batch { template := o.template } count = .ok b)
    (hordinary : w.store.Ordinary path) :
    Outcome
      (fun rows w' => rows = count ∧
        Placed w.store path (dataset o.style o.template count) w'.store)
      (fun _ w' => w'.store = w.store)
      ((writeStaged o b path : StateM World (Except FileFault Nat)).run w) := by
  refine (writeStaged_law hb path w).mono ?_ fun _ _ hfailed => hfailed.1
  rintro rows w' ⟨hrows, loc, hstages, -, hrename⟩
  exact ⟨hrows, Renamed.placed ⟨loc, hstages, hrename⟩ hordinary⟩

/-! ### Either mode -/

/-- **What writing a dataset changes.**  After a success its persons exist, there is the dataset
where the path leads, at a place for a file, and the metrics are those of the dataset.  After a
failure a staged dataset has changed nothing, and one that is written in place nothing else than the
file at its destination. -/
theorem populate_effect (o : PopulateOptions) (count : Nat) (hordinary : w.store.Ordinary path) :
    Outcome
      (fun m w' => m = { rows := count, bytes := (dataset o.style o.template count).length } ∧
        count ≤ personCount ∧
        Placed w.store path (dataset o.style o.template count) w'.store)
      (fun _ w' => (o.atomic = true → w'.store = w.store) ∧ Confined w.store path w'.store)
      ((populate o path count : StateM World (Except PopulateError Metrics)).run w) := by
  cases hb : Sequence.batch { template := o.template } count with
  | error e =>
      unfold populate
      rw [run_bind, World.run_note, hb]
      exact .error ⟨fun _ => rfl, .inl rfl⟩
  | ok b =>
      have hnoted : (w.noted (.generating path count o.style o.atomic)).store.Ordinary path :=
        hordinary
      have hwrite : Outcome
          (fun rows w' => rows = count ∧
            Placed w.store path (dataset o.style o.template count) w'.store)
          (fun _ w' => (o.atomic = true → w'.store = w.store) ∧ Confined w.store path w'.store)
          ((if o.atomic then writeStaged o b path else writeInPlace o b path :
            StateM World (Except FileFault Nat)).run
              (w.noted (.generating path count o.style o.atomic))) := by
        cases hmode : o.atomic with
        | true =>
            rw [hmode] at hnoted
            exact (writeStaged_effect hb hnoted).mono (fun _ _ hdone => hdone)
              fun _ _ hsame => ⟨fun _ => hsame, .inl hsame⟩
        | false =>
            rw [hmode] at hnoted
            exact (writeInPlace_effect hb hnoted).mono (fun _ _ hdone => hdone)
              fun _ _ hconfined => ⟨fun h => (Bool.false_ne_true h).elim, hconfined⟩
      refine (Outcome.populate hb hwrite fun rows w' hdone => hdone.2.size).mono ?_ ?_
      · rintro m w' ⟨rows, w'', rfl, ⟨rfl, hplaced⟩, hstore⟩
        exact ⟨rfl, (Sequence.batch_eq_ok_iff_le.1 hb).1, hstore ▸ hplaced⟩
      · rintro e w' ⟨fault, -, hfailed⟩
        exact hfailed

end Roster
