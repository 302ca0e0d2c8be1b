/-
**What writing a dataset leaves.**

A dataset is put element by element, through a buffer, into a file.  By induction on the batch the
text that has been put is at any time the beginning of the dataset, and whatever fails fails with
the file cut at its bound.  So at the end the file holds the dataset, or the first part of it and
an error has been given; what the buffer tries then adds nothing.

A staged dataset is written to a location that was free before.  After a failure this location is
erased, which leaves the store as it was; after a success its file is moved to where the path
names, and nothing else is left of it.

Main definitions:

* `Roster.Store.stagedAt`, `Roster.Store.Stages` — the staging file for a destination;
* `Roster.Renamed`, `Roster.Made`, `Roster.CutShort` — how a store differs from the one before.

Main results:

* `Roster.writeArray_outcome` — **all persons are put, or the text was too long for the file**;
* `Roster.writeTo_outcome` — the file holds the dataset, or was cut at its bound;
* `Roster.writeStaged_law` — **what has to succeed for a dataset to be staged**;
* `Roster.writeInPlace_outcome` — one that is written in place may be cut short;
* `Roster.populate_content` — **what a path leads to after a dataset has been written**.
-/

import Roster.Dataset.Populate
import Roster.Proofs.Disk
import Roster.Proofs.Person.Sequence
import Roster.Proofs.Store.Walk

set_option relaxedAutoImplicit false
set_option autoImplicit false

namespace Roster

open Json

/-! ### Elements -/

section

variable {σ ε ω : Type} {put : σ → Bytes → StateM ω (Except ε σ)}
  {done : Bytes → σ → ω → Prop} {cut : Bytes → ε → ω → Prop}

/-- A writer that has put a text, so many elements among it. -/
def Wrote (done : Bytes → σ → ω → Prop) (style : Style) (text : Bytes) (written : Nat)
    (aw : ArrayWriter σ) (w : ω) : Prop :=
  aw.style = style ∧ aw.written = written ∧ done text aw.sink w

/-- The opening bracket goes on or is cut off. -/
theorem Fills.begin (h : Fills put done cut) {s : σ} {w : ω} (hdone : done [] s w)
    (style : Style) :
    Outcome (Wrote done style [0x5b] 0) (cut [0x5b]) ((ArrayWriter.begin put s style).run w) := by
  rw [ArrayWriter.begin]
  refine (h.put [0x5b] hdone).bind ?_ ?_
  · intro s' w' hdone'
    exact .ok ⟨rfl, rfl, hdone'⟩
  · intro e w' hcut
    exact .error hcut

/-- An element goes on or is cut off. -/
theorem Fills.element (h : Fills put done cut) {style : Style} {text : Bytes} {written : Nat}
    {aw : ArrayWriter σ} {w : ω} (hwrote : Wrote done style text written aw w) (v : Value) :
    Outcome (Wrote done style (text ++ (elementPieces style written v).flatten) (written + 1))
      (cut (text ++ (elementPieces style written v).flatten)) ((aw.element put v).run w) := by
  obtain ⟨rfl, rfl, hdone⟩ := hwrote
  rw [ArrayWriter.element]
  refine (h.putAll hdone _).bind ?_ ?_
  · intro s' w' hdone'
    exact .ok ⟨rfl, rfl, hdone'⟩
  · intro e w' hcut
    exact .error hcut

end

/-! ### Batches -/

theorem personsFrom_succ (t : Template) (start count : Nat) :
    personsFrom t start (count + 1) =
      (Person.ofIndex t start).toJson :: personsFrom t (start + 1) count := by
  simp [personsFrom, List.range_succ_eq_map, Function.comp_def, Nat.add_assoc, Nat.add_comm 1]

section

variable {put : Buffer → Bytes → StateM World (Except (Stop FileError Buffer) Buffer)}

theorem writeBatch_zero (s : Sequence) (aw : ArrayWriter Buffer) :
    writeBatch put ⟨s, 0⟩ aw = pure (.ok aw) := by
  rw [writeBatch]
  rfl

/-- A batch writes its first person and goes on with the others. -/
theorem writeBatch_succ {t : Template} {i : Nat} (hi : i < personCount) (k : Nat)
    (aw : ArrayWriter Buffer) :
    writeBatch put ⟨{ template := t, index := i }, k + 1⟩ aw = (do
      match ← aw.element put (Person.ofIndex t i).toJson with
      | .error e => pure (.error e)
      | .ok aw => do
        if aw.written % progressInterval = 0 then Disk.note (.written aw.written)
        writeBatch put ⟨{ template := t, index := i + 1 }, k⟩ aw) := by
  rw [writeBatch]
  split
  · rename_i hnext
    rw [Batch.next_succ hi] at hnext
    cases hnext
  · rename_i p b' hnext
    rw [Batch.next_succ hi] at hnext
    cases hnext
    rfl

variable {done : Bytes → Buffer → World → Prop}
  {cut : Bytes → Stop FileError Buffer → World → Prop}

/-- A batch goes on or is cut off, person by person; the notices on the way make no difference. -/
theorem Fills.writeBatch (h : Fills put done cut)
    (hnote : ∀ text b w n, done text b w → done text b (w.noted n)) {style : Style} {t : Template}
    (k : Nat) {i written : Nat} (hi : i + k ≤ personCount) {text : Bytes}
    {aw : ArrayWriter Buffer} {w : World} (hwrote : Wrote done style text written aw w) :
    Outcome
      (Wrote done style (text ++ elementsText style written (personsFrom t i k)) (written + k))
      (cut (text ++ elementsText style written (personsFrom t i k)))
      ((Roster.writeBatch put ⟨{ template := t, index := i }, k⟩ aw).run w) := by
  -- induction on the persons still to come, the text growing by one element each time
  induction k generalizing i written text aw w with
  | zero =>
      rw [writeBatch_zero, run_pure]
      have htext : text ++ elementsText style written (personsFrom t i 0) = text :=
        List.append_nil _
      rw [htext]
      exact .ok hwrote
  | succ k ih =>
      have hlt : i < personCount := by omega
      rw [writeBatch_succ hlt, personsFrom_succ, elementsText, ← List.append_assoc]
      refine (h.element hwrote _).bind ?_ ?_
      · intro aw' w' hwrote'
        have hwritten : written + 1 + k = written + (k + 1) := by omega
        rw [← hwritten]
        by_cases hinterval : aw'.written % progressInterval = 0
        · simp only [hinterval, if_true, run_bind, World.run_note]
          obtain ⟨hstyle, hcount, hdone⟩ := hwrote'
          exact ih (by omega) ⟨hstyle, hcount, hnote _ _ _ _ hdone⟩
        · simp only [hinterval, if_false]
          exact ih (by omega) hwrote'
      · intro e w' hcut
        exact .error (h.longer _ hcut)

end

/-! ### Files -/

variable {o : PopulateOptions} {count : Nat} {b : Batch} {w : World}

/-- **All persons are put, or the text was too long for the file**, and the buffer holds what comes
next. -/
theorem writeArray_outcome (hb : Sequence.batch { template := o.template } count = .ok b)
    (f : OpenFile) (hw : w.store = f.holding []) :
    Outcome (fun rows w => rows = count ∧ f.Filled (dataset o.style o.template count) w)
      (f.Stopped (dataset o.style o.template count))
      ((writeArray o b (World.write f.loc) :
        StateM World (Except (Stop FileError Buffer) Nat)).run w) := by
  obtain ⟨hcount, rfl⟩ := Sequence.batch_eq_ok_iff_le.1 hb
  have hpersons : 0 + count ≤ personCount := (Nat.zero_add count).symm ▸ hcount
  have htext : dataset o.style o.template count =
      [0x5b] ++ elementsText o.style 0 (personsFrom o.template 0 count) ++ [0x5d] := rfl
  have hempty : f.Holds [] (Buffer.empty o.bufferSize) w :=
    ⟨Nat.lt_of_lt_of_le Nat.one_pos (Nat.le_max_right _ _), [], hw, rfl,
      fun _ _ _ => Nat.zero_le _⟩
  have hnote : ∀ text b w n, f.Holds text b w → f.Holds text b (w.noted n) :=
    fun _ _ _ _ h => ⟨h.capacity, h.split⟩
  rw [htext]
  unfold writeArray
  -- a failure on the way has cut the file at a part of the dataset, so it cuts all of it
  refine (f.fills.begin hempty o.style).bind ?_ fun e w' hstopped => ?_
  · intro aw w' hwrote
    refine (f.fills.writeBatch hnote count hpersons hwrote).bind ?_ fun e w' hstopped => ?_
    · rintro aw w' ⟨hstyle, hwritten, hholds⟩
      refine (f.fills.put [0x5d] hholds).bind ?_ fun e w' hstopped => ?_
      · intro buffer w' hholds
        refine (OpenFile.run_flush hholds).bind ?_ fun e w' hstopped => ?_
        · rintro _ w' ⟨_, _, hfilled⟩
          exact .ok ⟨hwritten.trans (Nat.zero_add _), hfilled⟩
        · exact .error hstopped
      · exact .error hstopped
    · exact .error (hstopped.longer _)
  · exact .error ((hstopped.longer _).longer _)

/-- The file holds the dataset, or was cut at its bound. -/
theorem writeTo_outcome (hb : Sequence.batch { template := o.template } count = .ok b)
    (f : OpenFile) (hw : w.store = f.holding []) :
    Outcome (fun rows w => rows = count ∧ f.Filled (dataset o.style o.template count) w)
      (f.Cut (dataset o.style o.template count))
      ((writeTo o b f.loc : StateM World (Except FileError Nat)).run w) := by
  unfold writeTo
  refine (writeArray_outcome hb f hw).bind ?_ ?_
  · intro rows w' hdone
    exact .ok hdone
  · intro e w' hstopped
    have hdrop : (e.reached.drop (Disk.write (m := StateM World) f.loc)).run w' = ((), w') :=
      hstopped.cut.run_drop e.reached
    rw [run_bind, hdrop]
    exact .error hstopped.cut

/-! ### Staging files -/

/-- The permission bits that a staging file takes on: those of the file that is at its destination,
or those of a new file. -/
def Store.adoptedMode (s : Store) (path : Path) (loc : Location) : Nat :=
  ((s.put loc (.file .empty (fileMode s.umask))).mode path).toOption.getD (fileMode s.umask)

/-- The staging file for a destination that is made at a location. -/
def Store.stagedAt (s : Store) (path : Path) (loc : Location) : OpenFile :=
  ⟨s, loc, s.adoptedMode path loc⟩

/-- The staging file for a destination is made at this location. -/
def Store.Stages (s : Store) (path : Path) (loc : Location) : Prop :=
  ∃ staging store, s.stage (stagingDirectory path) = .ok (loc, staging, store)

/-- Staging files are made at locations that are free. -/
theorem Store.Stages.free {s : Store} {path : Path} {loc : Location} (h : s.Stages path loc) :
    s.get? loc = none := by
  obtain ⟨staging, store, hstage⟩ := h
  exact (Store.stage_eq_ok hstage).1

/-- There is one location for a staging file. -/
theorem Store.Stages.unique {s : Store} {path : Path} {loc loc' : Location} (h : s.Stages path loc)
    (h' : s.Stages path loc') : loc' = loc := by
  obtain ⟨staging, store, hstage⟩ := h
  obtain ⟨staging', store', hstage'⟩ := h'
  exact (Prod.mk.inj (Except.ok.inj (hstage'.symm.trans hstage))).1

/-- **A batch is staged exactly if a staging file can be made, may be as long as the dataset, and
can then be moved to its destination.**  Otherwise nothing changes. -/
theorem writeStaged_law (hb : Sequence.batch { template := o.template } count = .ok b)
    (path : Path) (w : World) :
    Outcome
      (fun rows w' => rows = count ∧ ∃ loc, w.store.Stages path loc ∧
        (w.store.stagedAt path loc).Fits (dataset o.style o.template count) ∧
        ((w.store.stagedAt path loc).holding (dataset o.style o.template count)).rename loc path =
          .ok w'.store)
      (fun _ w' => w'.store = w.store ∧ ∀ loc, w.store.Stages path loc →
        (w.store.stagedAt path loc).Fits (dataset o.style o.template count) →
        ∃ e, ((w.store.stagedAt path loc).holding (dataset o.style o.template count)).rename loc
          path = .error e)
      ((writeStaged o b path : StateM World (Except FileFault Nat)).run w) := by
  unfold writeStaged
  cases hstage : w.store.stage (stagingDirectory path) with
  | error e =>
      have hno : ∀ loc, ¬w.store.Stages path loc := by
        rintro loc ⟨staging, store, hok⟩
        cases hstage.symm.trans hok
      have hrun : (Disk.stage (stagingDirectory path) : StateM World _).run w = (.error e, w) :=
        World.run_stage_of_error hstage
      rw [run_bind, hrun]
      exact .error ⟨rfl, fun loc hloc => (hno loc hloc).elim⟩
  | ok made =>
      obtain ⟨loc, staging, store⟩ := made
      obtain ⟨hfree, rfl⟩ := Store.stage_eq_ok hstage
      have hstages : w.store.Stages path loc := ⟨staging, _, hstage⟩
      have hrun : (Disk.stage (stagingDirectory path) : StateM World _).run w =
          (.ok (loc, staging),
            { w with store := OpenFile.holding ⟨w.store, loc, Store.fileMode w.store.umask⟩ [] }) :=
        World.run_stage_of_ok hstage
      have hadopt : (Disk.adoptMode (m := StateM World) loc path).run
            { w with store := OpenFile.holding ⟨w.store, loc, Store.fileMode w.store.umask⟩ [] } =
          (.ok (), { w with store := (w.store.stagedAt path loc).holding [] }) :=
        OpenFile.run_adoptMode (f := ⟨w.store, loc, Store.fileMode w.store.umask⟩) rfl path
      rw [run_bind, hrun]
      dsimp only
      rw [run_bind, hadopt]
      dsimp only
      rw [run_bind, World.run_note]
      refine (writeTo_outcome hb (w.store.stagedAt path loc) rfl).bind ?_ ?_
      · rintro rows w₁ ⟨hrows, hfilled, hfits⟩
        refine (World.run_rename loc path w₁).bind ?_ ?_
        · intro _ w₂ hrename
          rw [hfilled] at hrename
          exact .ok ⟨hrows, loc, hstages, hfits, hrename⟩
        · rintro e w₂ ⟨rfl, hrename⟩
          rw [hfilled] at hrename
          -- the staging file is complete, and taken away again
          refine .error ⟨OpenFile.store_run_discard hfree hfilled staging, ?_⟩
          intro loc' hloc _
          obtain rfl := hstages.unique hloc
          exact ⟨e, hrename⟩
      · intro e w₁ hcut
        obtain ⟨k, hbound, hlt, hstore⟩ := id hcut
        refine .error ⟨OpenFile.store_run_discard hfree hstore staging, ?_⟩
        intro loc' hloc hfits
        obtain rfl := hstages.unique hloc
        exact (hcut.not_fits hfits).elim

/-- The store that is left when a text has been staged for a path and its file has been moved there. -/
def Renamed (before : Store) (path : Path) (text : Bytes) (after : Store) : Prop :=
  ∃ loc, before.Stages path loc ∧
    ((before.stagedAt path loc).holding text).rename loc path = .ok after

/-- A staging file that is moved away leaves nothing where it was made. -/
theorem OpenFile.rename_holding {f : OpenFile} {path : Path} {text : Bytes} {after : Store}
    (hfree : f.base.get? f.loc = none) (h : (f.holding text).rename f.loc path = .ok after) :
    ∃ target, (f.holding text).resolveName path = .ok target ∧ path.endsWithSlash = false ∧
      (∀ l mode, target ≠ .found l (.directory mode)) ∧
      after = f.base.put target.location (.file text.toByteArray f.mode) := by
  obtain ⟨target, node, htarget, hnode, hends, hfile, rfl⟩ := Store.rename_eq_ok h
  obtain rfl : .file text.toByteArray f.mode = node := by simpa [OpenFile.holding] using hnode
  exact ⟨target, htarget, hends, hfile, by rw [OpenFile.erase_holding hfree]⟩

/-- Some text has been put as a file where a path led. -/
def Made (before : Store) (path : Path) (text : Bytes) (after : Store) : Prop :=
  ∃ target mode, before.resolve .make path = .ok target ∧
    after = before.put target.location (.file text.toByteArray mode)

/-- The first part of a text has been put as a file where a path led. -/
def CutShort (before : Store) (path : Path) (text : Bytes) (after : Store) : Prop :=
  ∃ k, k < text.length ∧ Made before path (text.take k) after

/-- A dataset that is written in place where there is a file or nothing leaves the dataset, or its
first part. -/
theorem writeInPlace_outcome (hb : Sequence.batch { template := o.template } count = .ok b)
    {path : Path} {w : World} (hfile : w.store.FileOrNothing path) :
    Outcome
      (fun rows w' => rows = count ∧ Made w.store path (dataset o.style o.template count) w'.store)
      (fun _ w' => w'.store = w.store ∨
        CutShort w.store path (dataset o.style o.template count) w'.store)
      ((writeInPlace o b path : StateM World (Except FileFault Nat)).run w) := by
  unfold writeInPlace
  refine (World.run_create hfile).bind ?_ fun e w' hw => .error (.inl (congrArg World.store hw))
  rintro loc w₁ ⟨target, mode, htarget, hloc, hopen⟩
  subst hloc
  refine (writeTo_outcome hb ⟨w.store, target.location, mode⟩ hopen).bind ?_ ?_
  · rintro rows w₂ ⟨hrows, hfilled, _⟩
    exact .ok ⟨hrows, target, mode, htarget, hfilled⟩
  · rintro e w₂ ⟨k, -, hlt, hcut⟩
    exact .error (.inr ⟨k, hlt, target, mode, htarget, hcut⟩)

/-! ### Datasets -/

/-- Writing a dataset ends as writing its batch does, except that the size of the file is asked for
after a success. -/
theorem populate_outcome (o : PopulateOptions) (path : Path) (count : Nat) (w : World)
    (written failed : Store → Prop)
    (hbatch : ∀ b w', Sequence.batch { template := o.template } count = .ok b →
      w'.store = w.store →
      Outcome (fun rows w' => rows = count ∧ written w'.store) (fun _ w' => failed w'.store)
        ((if o.atomic then writeStaged o b path else writeInPlace o b path :
          StateM World (Except FileFault Nat)).run w')) :
    Outcome
      (fun m w' => m.rows = count ∧ count ≤ personCount ∧ written w'.store ∧
        w'.store.size path = .ok m.bytes)
      (fun _ w' => w'.store = w.store ∨ failed w'.store ∨
        written w'.store ∧ ∃ e, w'.store.size path = .error e)
      ((populate o path count : StateM World (Except PopulateError Metrics)).run w) := by
  unfold populate
  rw [run_bind, World.run_note]
  cases hb : Sequence.batch { template := o.template } count with
  | error e => exact .error (.inl rfl)
  | ok b =>
      refine (hbatch b (w.noted (.generating path count o.style o.atomic)) hb rfl).bind ?_ ?_
      · rintro rows w₁ ⟨hrows, hwritten⟩
        rw [run_bind, World.run_size]
        cases hsize : w₁.store.size path with
        | error e => exact .error (.inr (.inr ⟨hwritten, e, hsize⟩))
        | ok bytes =>
            exact .ok ⟨hrows, (Sequence.batch_eq_ok_iff_le.1 hb).1, hwritten, hsize⟩
      · intro e w₁ hfailed
        exact .error (.inr (.inl hfailed))

/-- After a text was made a file along a path, the path leads to this file if it leads anywhere. -/
theorem Made.leads {before after : Store} {path : Path} {text : Bytes} {k : Nat}
    (h : Made before path text after) (hsize : after.size path = .ok k) :
    ∃ dest mode, after = before.put dest (.file text.toByteArray mode) ∧
      after.node path = .ok (dest, .file text.toByteArray mode) := by
  obtain ⟨target, mode, htarget, rfl⟩ := h
  obtain ⟨loc, node, hnode⟩ := Store.node_of_size hsize
  obtain ⟨rfl, rfl⟩ := Store.node_of_made htarget hnode
  exact ⟨_, mode, rfl, hnode⟩

/-- After a staged text was moved to where a path names, the path leads to this file and names it, if
it leads anywhere. -/
theorem Renamed.leads {before after : Store} {path : Path} {text : Bytes} {k : Nat}
    (h : Renamed before path text after) (hsize : after.size path = .ok k) :
    ∃ dest mode, after = before.put dest (.file text.toByteArray mode) ∧
      after.node path = .ok (dest, .file text.toByteArray mode) ∧
      after.resolveName path = .ok (.found dest (.file text.toByteArray mode)) := by
  obtain ⟨loc, hstages, hrename⟩ := h
  obtain ⟨target, htarget, hends, -, rfl⟩ :=
    OpenFile.rename_holding (f := before.stagedAt path loc) hstages.free hrename
  obtain ⟨loc', node, hnode⟩ := Store.node_of_size hsize
  obtain ⟨⟨rfl, rfl⟩, hname⟩ := Store.node_of_moved hends htarget hnode
  exact ⟨_, _, rfl, hnode, hname⟩

/-- After a failure a staged dataset has left nothing, unless it was complete and only its size
could not be read. -/
theorem populate_staged_outcome (hatomic : o.atomic = true) (count : Nat) (path : Path) :
    Outcome
      (fun m w' => count ≤ personCount ∧
        Renamed w.store path (dataset o.style o.template count) w'.store ∧
        w'.store.size path = .ok m.bytes)
      (fun _ w' => w'.store = w.store ∨
        Renamed w.store path (dataset o.style o.template count) w'.store ∧
          ∃ e, w'.store.size path = .error e)
      ((populate o path count : StateM World (Except PopulateError Metrics)).run w) := by
  have hbatch : ∀ b w', Sequence.batch { template := o.template } count = .ok b →
      w'.store = w.store →
      Outcome
        (fun rows w' => rows = count ∧
          Renamed w.store path (dataset o.style o.template count) w'.store)
        (fun _ w' => w'.store = w.store)
        ((if o.atomic then writeStaged o b path else writeInPlace o b path :
          StateM World (Except FileFault Nat)).run w') := by
    intro b w' hb hstore
    rw [if_pos hatomic, ← hstore]
    refine (writeStaged_law hb path w').mono ?_ fun _ _ hfailed => hfailed.1
    rintro rows w'' ⟨hrows, loc, hstages, -, hrename⟩
    exact ⟨hrows, loc, hstages, hrename⟩
  refine (populate_outcome o path count w _ (fun s => s = w.store) hbatch).mono ?_ ?_
  · rintro m w' ⟨_, hcount, hrenamed, hsize⟩
    exact ⟨hcount, hrenamed, hsize⟩
  · rintro e w' (hsame | hsame | hrenamed)
    · exact .inl hsame
    · exact .inl hsame
    · exact .inr hrenamed

/-! ### Writing in place -/

/-- After a failure a dataset that is written in place has left nothing or its first part, unless
it was complete and only its size could not be read. -/
theorem populate_in_place_outcome (hplain : o.atomic = false) (count : Nat) {path : Path}
    (hfile : w.store.FileOrNothing path) :
    Outcome
      (fun m w' => count ≤ personCount ∧
        Made w.store path (dataset o.style o.template count) w'.store ∧
        w'.store.size path = .ok m.bytes)
      (fun _ w' => w'.store = w.store ∨
        CutShort w.store path (dataset o.style o.template count) w'.store ∨
        Made w.store path (dataset o.style o.template count) w'.store ∧
          ∃ e, w'.store.size path = .error e)
      ((populate o path count : StateM World (Except PopulateError Metrics)).run w) := by
  have hbatch : ∀ b w', Sequence.batch { template := o.template } count = .ok b →
      w'.store = w.store →
      Outcome
        (fun rows w' => rows = count ∧
          Made w.store path (dataset o.style o.template count) w'.store)
        (fun _ w' => w'.store = w.store ∨
          CutShort w.store path (dataset o.style o.template count) w'.store)
        ((if o.atomic then writeStaged o b path else writeInPlace o b path :
          StateM World (Except FileFault Nat)).run w') := by
    intro b w' hb hstore
    rw [if_neg (by simp [hplain]), ← hstore]
    exact writeInPlace_outcome hb (hstore ▸ hfile)
  refine (populate_outcome o path count w _ (fun s => s = w.store ∨
    CutShort w.store path (dataset o.style o.template count) s) hbatch).mono ?_ ?_
  · rintro m w' ⟨_, hcount, hmade, hsize⟩
    exact ⟨hcount, hmade, hsize⟩
  · rintro e w' (hsame | (hsame | hcut) | hmade)
    · exact .inl hsame
    · exact .inl hsame
    · exact .inr (.inl hcut)
    · exact .inr (.inr hmade)

/-! ### Contents -/

/-- After a dataset has been written its persons exist, and the path leads to a file that holds
it. -/
theorem populate_content {path : Path} {w' : World} {metrics : Metrics}
    (hfile : w.store.FileOrNothing path)
    (hrun : (populate o path count : StateM World (Except PopulateError Metrics)).run w =
      (.ok metrics, w')) :
    count ≤ personCount ∧
      w'.store.content path = .ok (dataset o.style o.template count).toByteArray := by
  cases hmode : o.atomic with
  | true =>
      have houtcome := populate_staged_outcome (w := w) hmode count path
      rw [hrun] at houtcome
      cases houtcome with
      | ok hdone =>
          obtain ⟨hcount, hrenamed, hsize⟩ := hdone
          obtain ⟨_, _, -, hnode, -⟩ := hrenamed.leads hsize
          exact ⟨hcount, Store.content_of_node hnode⟩
  | false =>
      have houtcome := populate_in_place_outcome (w := w) hmode count hfile
      rw [hrun] at houtcome
      cases houtcome with
      | ok hdone =>
          obtain ⟨hcount, hmade, hsize⟩ := hdone
          obtain ⟨_, _, -, hnode⟩ := hmade.leads hsize
          exact ⟨hcount, Store.content_of_node hnode⟩

end Roster
