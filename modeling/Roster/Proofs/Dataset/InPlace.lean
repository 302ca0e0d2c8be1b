/-
**A dataset that is written in place.**

In place, a dataset is written over what was there.  If a file may not grow to the length of the
dataset, because of the limit or because the disk is full, what is left is the first part of it, as
long as the file can be, byte by byte, wherever the buffer before the file has cut the text and
whatever it tries again when it is given up.  Whether all persons exist is settled before anything is
opened, and whether the file may be opened before anything is changed.

Main results:

* `Roster.Outcome.populate` — writing a dataset ends as writing its batch does;
* `Roster.Outcome.populate_filled` — the same where a path leads to a place for a file;
* `Roster.populate_overflow` — too many persons are refused before any file is touched;
* `Roster.populate_in_place_at` — what is left where a path leads to a place for a file;
* `Roster.populate_in_place_of_fits` — what is left there if a file may be as long as the dataset;
* `Roster.populate_in_place_of_create` — what cannot be opened is refused;
* `Roster.populate_in_place_up_to_bound` — **the file holds the dataset or its first part**;
* `Roster.populate_in_place_too_far`, `Roster.populate_in_place_without_space`,
  `Roster.populate_in_place_protected` — what else than the limit can stand in the way.
-/

import Mathlib.Algebra.Group.Nat.Defs
import Roster.Proofs.Dataset.Populate
import Roster.Proofs.Store.Edge

set_option relaxedAutoImplicit false
set_option autoImplicit false

namespace Roster

open Json

variable {o : PopulateOptions} {count : Nat} {b : Batch} {path : Path} {w : World}

/-! ### From batches to datasets -/

/-- Writing a dataset ends as writing its batch does, if the size of the file can be read then. -/
theorem Outcome.populate {written : Nat → World → Prop} {failed : FileFault → World → Prop}
    {bytes : Nat} (hb : Sequence.batch { template := o.template } count = .ok b)
    (hwrite : Outcome written failed
      ((if o.atomic then writeStaged o b path else writeInPlace o b path :
        StateM World (Except FileFault Nat)).run
          (w.noted (.generating path count o.style o.atomic))))
    (hsize : ∀ rows w', written rows w' → w'.store.size path = .ok bytes) :
    Outcome (fun m w' => ∃ rows w'', m = { rows, bytes } ∧ written rows w'' ∧ w'.store = w''.store)
      (fun e w' => ∃ fault, e = .file path fault ∧ failed fault w')
      ((populate o path count : StateM World (Except PopulateError Metrics)).run w) := by
  unfold Roster.populate
  rw [run_bind, World.run_note, hb]
  refine hwrite.bind ?_ ?_
  · intro rows w' hwritten
    rw [run_bind, World.run_size, hsize rows w' hwritten]
    exact .ok ⟨rows, w', rfl, hwritten, rfl⟩
  · intro fault w' hfailed
    exact .error ⟨fault, rfl, hfailed⟩

/-- Too many persons are refused before any file is touched. -/
theorem populate_overflow (o : PopulateOptions) (path : Path) (w : World)
    (hcount : personCount < count) (hindex : count ≤ maxIndex) :
    (populate o path count : StateM World (Except PopulateError Metrics)).run w =
      (.error (.overflow ⟨count - 1⟩), w.noted (.generating path count o.style o.atomic)) := by
  unfold populate
  rw [run_bind, World.run_note, Sequence.batch_of_gt o.template hcount hindex]
  rfl

/-! ### Places -/

/-- The file that is opened for writing at a place. -/
def Store.openAt (s : Store) (loc : Location) : OpenFile := ⟨s, loc, s.keptMode loc⟩

/-- After a text was put as a file where a path leads, its size can be read there. -/
theorem Store.size_openAt {s : Store} {p : Store.Purpose} {target : Store.Target}
    (h : s.resolve p path = .ok target) (hplace : s.IsPlace target.location) (text : Bytes) :
    ((s.openAt target.location).holding text).size path = .ok text.length := by
  rw [OpenFile.holding, Store.openAt, Store.size_of_node (Store.node_put h hplace _ _),
    List.size_toByteArray]

/-- A batch that is written in place fills the file that a path leads to, or is cut at its bound. -/
theorem writeInPlace_at (hb : Sequence.batch { template := o.template } count = .ok b)
    {target : Store.Target} (hmake : w.store.resolve .make path = .ok target)
    (hplace : w.store.IsPlace target.location)
    (hgrant : w.store.grant .write target.location = .ok ()) :
    Outcome
      (fun rows w' => rows = count ∧
        (w.store.openAt target.location).Filled (dataset o.style o.template count) w')
      (fun e w' => e.staging = none ∧
        (w.store.openAt target.location).Cut (dataset o.style o.template count) e.cause w')
      ((writeInPlace o b path : StateM World (Except FileFault Nat)).run w) := by
  have hopened : (Disk.create path : StateM World _).run w =
      (.ok target.location, { w with store := (w.store.openAt target.location).holding [] }) :=
    World.run_create_of_ok (Store.create_of_resolve hmake hplace hgrant)
  unfold writeInPlace
  rw [run_bind, hopened]
  refine (writeTo_outcome hb (w.store.openAt target.location) rfl).bind ?_ ?_
  · rintro rows w' ⟨hrows, hfilled⟩
    exact .ok ⟨hrows, hfilled⟩
  · intro e w' hcut
    exact .error ⟨rfl, hcut⟩

/-- If a batch leaves its dataset at the place that a path leads to, the size can be read there. -/
theorem Outcome.populate_filled {p : Store.Purpose} {target : Store.Target} {fits : Prop}
    {failed : FileFault → World → Prop} (hcount : count ≤ personCount)
    (hleads : w.store.resolve p path = .ok target) (hplace : w.store.IsPlace target.location)
    (hwrite : Outcome
      (fun rows w' => rows = count ∧
        w'.store = (w.store.openAt target.location).holding (dataset o.style o.template count) ∧
        fits)
      failed
      ((if o.atomic then writeStaged o ⟨{ template := o.template }, count⟩ path
        else writeInPlace o ⟨{ template := o.template }, count⟩ path :
        StateM World (Except FileFault Nat)).run
          (w.noted (.generating path count o.style o.atomic)))) :
    Outcome
      (fun m w' => m = { rows := count, bytes := (dataset o.style o.template count).length } ∧
        w'.store = (w.store.openAt target.location).holding (dataset o.style o.template count) ∧
        fits)
      (fun e w' => ∃ fault, e = .file path fault ∧ failed fault w')
      ((Roster.populate o path count : StateM World (Except PopulateError Metrics)).run w) := by
  have hsize : ∀ rows (w' : World), rows = count ∧
      w'.store = (w.store.openAt target.location).holding (dataset o.style o.template count) ∧
      fits → w'.store.size path = .ok (dataset o.style o.template count).length := by
    rintro rows w' ⟨-, hstore, -⟩
    rw [hstore]
    exact Store.size_openAt hleads hplace _
  refine (Outcome.populate (Sequence.batch_of_le o.template hcount) hwrite hsize).mono ?_
    fun _ _ hfailed => hfailed
  rintro m w' ⟨rows, w'', rfl, ⟨rfl, hheld, hfits⟩, hstore⟩
  exact ⟨rfl, hstore.trans hheld, hfits⟩

/-- What a dataset leaves that is written in place where a path leads to a place for a file. -/
theorem populate_in_place_at (hplain : o.atomic = false) (hcount : count ≤ personCount)
    {target : Store.Target} (hmake : w.store.resolve .make path = .ok target)
    (hplace : w.store.IsPlace target.location)
    (hgrant : w.store.grant .write target.location = .ok ()) :
    Outcome
      (fun m w' => m = { rows := count, bytes := (dataset o.style o.template count).length } ∧
        (w.store.openAt target.location).Filled (dataset o.style o.template count) w')
      (fun e w' => ∃ cause, e = .file path ⟨cause, none⟩ ∧
        (w.store.openAt target.location).Cut (dataset o.style o.template count) cause w')
      ((populate o path count : StateM World (Except PopulateError Metrics)).run w) := by
  have hwrite := writeInPlace_at (w := w.noted (.generating path count o.style o.atomic))
    (Sequence.batch_of_le o.template hcount) hmake hplace hgrant
  refine (Outcome.populate_filled hcount hmake hplace (by rwa [if_neg (by simp [hplain])])).mono
    (fun _ _ hdone => hdone) ?_
  rintro e w' ⟨⟨cause, _⟩, rfl, rfl, hcut⟩
  exact ⟨cause, rfl, hcut⟩

/-- A dataset is written in place where a path leads to a place for a file, if there is access and a
file may be as long as the dataset there. -/
theorem populate_in_place_of_fits (hplain : o.atomic = false) (hcount : count ≤ personCount)
    {target : Store.Target} (hmake : w.store.resolve .make path = .ok target)
    (hplace : w.store.IsPlace target.location)
    (hgrant : w.store.grant .write target.location = .ok ())
    (hfits : (w.store.openAt target.location).Fits (dataset o.style o.template count)) :
    ∃ w', (populate o path count : StateM World (Except PopulateError Metrics)).run w =
        (.ok { rows := count, bytes := (dataset o.style o.template count).length }, w') ∧
      w'.store = (w.store.openAt target.location).holding (dataset o.style o.template count) := by
  have houtcome := populate_in_place_at hplain hcount hmake hplace hgrant
  generalize (populate o path count : StateM World (Except PopulateError Metrics)).run w = r
    at houtcome ⊢
  cases houtcome with
  | ok hdone =>
      obtain ⟨rfl, hstore, -⟩ := hdone
      exact ⟨_, rfl, hstore⟩
  | error hfailed =>
      obtain ⟨cause, -, hcut⟩ := hfailed
      exact (hcut.not_fits hfits).elim

/-- A dataset that cannot be opened for writing in place is refused, and nothing has changed. -/
theorem populate_in_place_of_create {e : FileError} (hplain : o.atomic = false)
    (hcount : count ≤ personCount) (hcreate : w.store.create path = .error e) :
    (populate o path count : StateM World (Except PopulateError Metrics)).run w =
      (.error (.file path ⟨e, none⟩), w.noted (.generating path count o.style o.atomic)) := by
  have hrefused : (Disk.create path : StateM World _).run
      (w.noted (.generating path count o.style o.atomic)) =
        (.error e, w.noted (.generating path count o.style o.atomic)) :=
    World.run_create_of_error hcreate
  unfold populate
  rw [run_bind, World.run_note, Sequence.batch_of_le o.template hcount]
  show StateT.run (_ >>= _) _ = _
  rw [if_neg (by simp [hplain]), run_bind]
  unfold writeInPlace
  rw [run_bind, hrefused]
  rfl

/-- **The file holds the dataset or its first part.**  Let a path name a file or nothing, in a tree,
and let the persons of a dataset exist.  If the system does not let the file be opened for writing,
the dataset is refused with its reason, and nothing has changed.  Otherwise the dataset is written in
place exactly if it is not longer than a file may be and there is space for it.  If it is not written,
the file holds its first part, as long as the file can be, nothing else has changed, and the reason
that is given is that of the bound: where there is space, the limit.  A dataset with more persons than
exist is refused, and nothing at all has changed. -/
theorem populate_in_place_up_to_bound (hplain : o.atomic = false) :
    (count ≤ personCount → w.store.WellFormed →
      ∀ target, w.store.resolve .name path = .ok target → w.store.IsPlace target.location →
        (∀ cause, w.store.grant .write target.location = .error cause →
          ∃ w', (populate o path count : StateM World (Except PopulateError Metrics)).run w =
              (.error (.file path ⟨cause, none⟩), w') ∧
            w'.store = w.store) ∧
        (w.store.grant .write target.location = .ok () →
          ((∃ m w', (populate o path count : StateM World (Except PopulateError Metrics)).run w =
              (.ok m, w')) ↔
            (∀ k, w.store.limit = some k → (dataset o.style o.template count).length ≤ k) ∧
              w.store.HasSpace target.location (dataset o.style o.template count).length) ∧
          ∀ e w', (populate o path count : StateM World (Except PopulateError Metrics)).run w =
              (.error e, w') →
            ∃ k cause, w.store.bound target.location = some (k, cause) ∧
              k < (dataset o.style o.template count).length ∧
              (w.store.HasSpace target.location (dataset o.style o.template count).length →
                w.store.limit = some k ∧ cause = .fileTooLarge) ∧
              e = .file path ⟨cause, none⟩ ∧
              w'.store = w.store.put target.location
                (.file ((dataset o.style o.template count).take k).toByteArray
                  (w.store.keptMode target.location)) ∧
              w'.store.content path =
                .ok ((dataset o.style o.template count).take k).toByteArray)) ∧
      (personCount < count → count ≤ maxIndex →
        ∃ w', (populate o path count : StateM World (Except PopulateError Metrics)).run w =
            (.error (.overflow ⟨count - 1⟩), w') ∧
          w'.store = w.store) := by
  refine ⟨?_, ?_⟩
  · intro hcount hs target hname hplace
    have hmake := hs.make_of_name hname hplace
    refine ⟨?_, ?_⟩
    · intro cause hrefused
      exact ⟨_, populate_in_place_of_create hplain hcount
        (Store.create_refused hmake hplace hrefused), rfl⟩
    · intro hgrant
      have houtcome := populate_in_place_at hplain hcount hmake hplace hgrant
      refine ⟨?_, ?_⟩
      · rw [← Store.le_bound_iff]
        refine houtcome.ok_iff (fun _ _ hdone => hdone.2.2) ?_
        rintro e w' ⟨cause, -, hcut⟩
        exact hcut.not_fits
      · intro e w' hrun
        rw [hrun] at houtcome
        cases houtcome with
        | error hfailed =>
            obtain ⟨cause, he, k, hbound, hlt, hstore⟩ := hfailed
            refine ⟨k, cause, hbound, hlt, fun hspace => ?_, he, hstore, ?_⟩
            · exact Store.bound_of_hasSpace hspace hbound hlt
            · rw [hstore]
              exact Store.content_of_node (Store.node_put hmake hplace _ _)
  · intro hcount hindex
    exact ⟨_, populate_overflow o path w hcount hindex, rfl⟩

/-- Of two persons ten bytes are left where no file may be longer, and one person more than there
are is refused. -/
theorem populate_in_place_ten_bytes :
    (∃ e w', (populate {} ⟨"data.json"⟩ 2 : StateM World (Except PopulateError Metrics)).run
        ⟨{ Store.bare with limit := some 10 }, []⟩ = (.error e, w') ∧
      e = .file ⟨"data.json"⟩ ⟨.fileTooLarge, none⟩ ∧
      w'.store.content ⟨"data.json"⟩ = .ok (utf8 "[\x7b\"@id\":\"o").toByteArray) ∧
      ∃ w', (populate {} ⟨"data.json"⟩ (2 ^ 64 - 4) :
          StateM World (Except PopulateError Metrics)).run ⟨.bare, []⟩ =
        (.error (.overflow ⟨2 ^ 64 - 5⟩), w') ∧ w'.store = .bare := by
  refine ⟨?_, (populate_in_place_up_to_bound (o := {}) (w := ⟨.bare, []⟩) rfl).2 (by decide)
    (by decide)⟩
  have hs : Store.WellFormed { Store.bare with limit := some 10 } :=
    Store.wellFormed_of_root rfl rfl
  have hname : ∀ p, ({ Store.bare with limit := some 10 } : Store).resolve p ⟨"data.json"⟩ =
      .ok (.free [] "data.json") := Store.resolve_bare rfl rfl
  have hcount : 2 ≤ personCount := by decide
  have hplace : ({ Store.bare with limit := some 10 } : Store).IsPlace ["data.json"] := .inl rfl
  have hlaw := ((populate_in_place_up_to_bound (o := {})
    (w := ⟨{ Store.bare with limit := some 10 }, []⟩) rfl).1 hcount hs _ (hname .name) hplace).2 rfl
  have hshort : ¬∀ k, some 10 = some k → (dataset .compact {} 2).length ≤ k := by
    intro h
    exact absurd (h 10 rfl) (by decide +kernel)
  have hspace : ({ Store.bare with limit := some 10 } : Store).HasSpace ["data.json"]
      (dataset .compact {} 2).length := fun k e hk => by cases hk
  rcases hrun : (populate {} ⟨"data.json"⟩ 2 : StateM World (Except PopulateError Metrics)).run
    ⟨{ Store.bare with limit := some 10 }, []⟩ with ⟨r, w'⟩
  cases r with
  | ok m => exact (hshort (hlaw.1.1 ⟨m, w', hrun⟩).1).elim
  | error e =>
      obtain ⟨k, cause, -, -, hbound, he, -, hcontent⟩ := hlaw.2 e w' hrun
      obtain ⟨hk, rfl⟩ := hbound hspace
      obtain rfl : 10 = k := Option.some.inj hk
      have htake : (dataset .compact {} 2).take 10 = utf8 "[\x7b\"@id\":\"o" := by decide +kernel
      exact ⟨e, w', rfl, he, htake ▸ hcontent⟩

/-! ### What else can stand in the way -/

/-- A path that is too long is refused, although a shorter one leads to the same place. -/
theorem populate_in_place_too_far :
    ∃ w', (populate {} (Path.behindSlashes 4091) 0 :
        StateM World (Except PopulateError Metrics)).run ⟨.oneDirectory, []⟩ =
      (.error (.file (Path.behindSlashes 4091) ⟨.nameTooLong, none⟩), w') := by
  have hcheck := Store.check_behindSlashes_far 4091 (by decide)
  have hcreate : Store.oneDirectory.create (Path.behindSlashes 4091) = .error .nameTooLong := by
    rw [Store.create, Store.resolve, hcheck]
    rfl
  exact ⟨_, populate_in_place_of_create (o := {}) (w := ⟨.oneDirectory, []⟩) rfl (Nat.zero_le _)
    hcreate⟩

/-- On a disk with space for one byte, one byte of an empty dataset is left. -/
theorem populate_in_place_without_space :
    ∃ w', (populate {} ⟨"data.json"⟩ 0 : StateM World (Except PopulateError Metrics)).run
        ⟨{ Store.bare with space := Store.diskSpace 1 }, []⟩ =
          (.error (.file ⟨"data.json"⟩ ⟨.noSpace, none⟩), w') ∧
      w'.store.content ⟨"data.json"⟩ = .ok (utf8 "[").toByteArray := by
  let s : Store := { Store.bare with space := Store.diskSpace 1 }
  have hfree : ∀ p, s.resolve p ⟨"data.json"⟩ = .ok (.free [] "data.json") :=
    Store.resolve_bare rfl rfl
  have hplace : s.IsPlace ["data.json"] := .inl rfl
  have hbound : s.bound ["data.json"] = some (1, .noSpace) := rfl
  have houtcome := populate_in_place_at (o := {}) (w := ⟨s, []⟩) rfl (Nat.zero_le personCount)
    (hfree .make) hplace rfl
  generalize (populate {} ⟨"data.json"⟩ 0 :
    StateM World (Except PopulateError Metrics)).run ⟨s, []⟩ = r at houtcome ⊢
  cases houtcome with
  | ok hdone => exact absurd (hdone.2.2 1 .noSpace hbound) (by decide)
  | error hfailed =>
      obtain ⟨cause, rfl, k, hk, -, hstore⟩ := hfailed
      obtain ⟨rfl, rfl⟩ := Prod.mk.inj (Option.some.inj (hbound.symm.trans hk))
      refine ⟨_, rfl, ?_⟩
      rw [hstore]
      exact Store.content_of_node (Store.node_put (hfree .make) hplace _ _)

/-- A file that its user may not write to is refused, and stays as it was. -/
theorem populate_in_place_protected :
    ∃ w', (populate {} ⟨"data.json"⟩ 0 : StateM World (Except PopulateError Metrics)).run
        ⟨{ Store.oneFile .empty 0o444 with refusal := Store.ownerRefusal }, []⟩ =
          (.error (.file ⟨"data.json"⟩ ⟨.other "Permission denied (os error 13)", none⟩), w') ∧
      w'.store = { Store.oneFile .empty 0o444 with refusal := Store.ownerRefusal } := by
  let s : Store := { Store.oneFile .empty 0o444 with refusal := Store.ownerRefusal }
  have hfound : ∀ p, s.resolve p ⟨"data.json"⟩ =
      .ok (.found ["data.json"] (.file .empty 0o444)) := Store.resolve_oneFile rfl rfl
  have hcreate : s.create ⟨"data.json"⟩ = .error (.other "Permission denied (os error 13)") :=
    Store.create_refused (hfound .make) (.inr ⟨_, _, rfl⟩) rfl
  exact ⟨_, populate_in_place_of_create (o := {}) (w := ⟨s, []⟩) rfl (Nat.zero_le _) hcreate, rfl⟩

/-- **Where no file is limited, a dataset that is written in place can still be refused**: a path may
be too long although a shorter one leads to the same place, the disk may be full, and the destination
may be a file that its user may not write to. -/
theorem populate_in_place_hindered :
    ((Path.behindSlashes 4091).names = Path.names ⟨"./d/f"⟩ ∧
        Store.oneDirectory.resolve .name ⟨"./d/f"⟩ = .ok (.free ["d"] "f") ∧
        Store.oneDirectory.limit = none ∧
        ∃ w', (populate {} (Path.behindSlashes 4091) 0 :
            StateM World (Except PopulateError Metrics)).run ⟨.oneDirectory, []⟩ =
          (.error (.file (Path.behindSlashes 4091) ⟨.nameTooLong, none⟩), w')) ∧
      (∃ w', (populate {} ⟨"data.json"⟩ 0 :
            StateM World (Except PopulateError Metrics)).run
          ⟨{ Store.bare with space := Store.diskSpace 1 }, []⟩ =
            (.error (.file ⟨"data.json"⟩ ⟨.noSpace, none⟩), w') ∧
        w'.store.content ⟨"data.json"⟩ = .ok (utf8 "[").toByteArray) ∧
      ∃ w', (populate {} ⟨"data.json"⟩ 0 :
            StateM World (Except PopulateError Metrics)).run
          ⟨{ Store.oneFile .empty 0o444 with refusal := Store.ownerRefusal }, []⟩ =
            (.error (.file ⟨"data.json"⟩ ⟨.other "Permission denied (os error 13)", none⟩), w') ∧
        w'.store.content ⟨"data.json"⟩ = .ok .empty := by
  have hnames : (Path.behindSlashes 4091).names = Path.names ⟨"./d/f"⟩ := by
    rw [Path.names_behindSlashes]
    decide
  have hshort : Store.oneDirectory.resolve .name ⟨"./d/f"⟩ = .ok (.free ["d"] "f") :=
    Store.resolve_behindSlashes 0 (by decide)
  obtain ⟨w', hrun, hstore⟩ := populate_in_place_protected
  refine ⟨⟨hnames, hshort, rfl, populate_in_place_too_far⟩, populate_in_place_without_space,
    w', hrun, ?_⟩
  have hfound : ∀ p, w'.store.resolve p ⟨"data.json"⟩ =
      .ok (.found ["data.json"] (.file .empty 0o444)) := by
    rw [hstore]
    exact Store.resolve_oneFile rfl rfl
  exact Store.content_of_node (Store.node_eq_ok_iff.2 (hfound .use))

end Roster
