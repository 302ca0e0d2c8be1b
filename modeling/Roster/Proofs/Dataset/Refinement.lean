/-
**Staging refines writing in place.**

A staged dataset goes a long way round: to a new file in the directory of its destination, which
takes on the permission bits of the destination and is then moved there.  Yet where the
destination is a file or nothing it ends as a dataset that is written in place, whatever the
buffers: where both succeed they leave the same store.

They also succeed in the same cases, as long as nothing is refused to one of them that the other one
does not ask for.  The staging file has a path of its own, from the root to the directory of the
destination, and this path may be too long where that of the destination is not.  It needs space
beside the destination, while a dataset that is written in place takes up that of the file before.
And in place the destination is opened for writing, while a staged dataset only replaces it.

Main definitions:

* `Roster.Store.Unhindered` — nothing but the limit stands in the way of a dataset, in either mode.

Main results:

* `Roster.dataset_eq` — the text of a dataset, spelled out;
* `Roster.populate_staged_at` — **what a staged dataset leaves** at a place for a file;
* `Roster.populate_done` — what a dataset leaves that has been written, in either mode;
* `Roster.populate_iff` — when a dataset is written where nothing stands in the way;
* `Roster.staged_iff_in_place` — **a dataset is staged exactly if it is written in place**, and the
  store is the same afterwards;
* `Roster.Store.unhindered_of_disk` — what stands in the way of an ordinary user on a disk;
* `Roster.staged_too_far`, `Roster.staged_without_space`, `Roster.staged_over_protected` — what is
  refused in one mode only.
-/

import Roster.Proofs.Dataset.Document
import Roster.Proofs.Dataset.Effect
import Roster.Proofs.Store.Beside

set_option relaxedAutoImplicit false
set_option autoImplicit false

namespace Roster

open Json

variable {o : PopulateOptions} {count : Nat} {b : Batch} {path : Path} {w : World}
  {target : Store.Target}

/-- The text of a dataset: between brackets the persons in the order of their indices, with a comma
between them. -/
theorem dataset_eq (style : Style) (t : Template) (count : Nat) :
    dataset style t count =
      0x5b :: [0x2c].intercalate
        ((List.range count).map fun i => (Person.ofIndex t i).toJson.text style) ++ [0x5d] := by
  have htexts : (personsFrom t 0 count).map (·.text style) =
      (List.range count).map fun i => (Person.ofIndex t i).toJson.text style := by
    simp [personsFrom]
  rw [dataset, document, elementsText_eq, decide_eq_true rfl, joined_true, htexts]
  rfl

/-! ### Staging at a place -/

namespace Store

variable {s : Store} {staged : Location}

/-- A staging file takes on the permission bits that are kept at the destination. -/
theorem adoptedMode_eq (huse : s.resolve .use path = .ok target)
    (hplace : s.IsPlace target.location) (hfree : s.get? staged = none) :
    s.adoptedMode path staged = s.keptMode target.location := by
  obtain ⟨hcheck, hleads⟩ := resolve_eq_ok_iff.1 huse
  have hget := hleads.get?_location
  by_cases hsame : target.location = staged
  · -- the destination was free, and it is there that the staging file is made
    have hput := hleads.use_put hplace .empty (fileMode s.umask)
    have hnode : (s.put target.location (.file .empty (fileMode s.umask))).node path =
        .ok (target.location, .file .empty (fileMode s.umask)) :=
      node_eq_ok_iff.2 (resolve_eq_ok_iff.2 ⟨hcheck, hput⟩)
    rw [adoptedMode, ← hsame, Store.mode, hnode, keptMode, hsame, hfree]
    rfl
  · -- the path leads where it led before
    have hput : (s.put staged (.file .empty (fileMode s.umask))).resolve .use path = .ok target :=
      resolve_eq_ok_iff.2 ⟨hcheck, hleads.put (.inl hfree) hsame .empty (fileMode s.umask)⟩
    rw [adoptedMode, Store.mode, Store.node, hput, keptMode, hget]
    cases target with
    | free parent name => rfl
    | found loc node =>
        rcases hplace with hnone | ⟨content, mode, hfile⟩
        · exact (Option.some_ne_none node (hget.symm.trans hnone)).elim
        · obtain rfl : node = .file content mode := Option.some.inj (hget.symm.trans hfile)
          rfl

end Store

/-- A batch that is staged for a place is left there, or is too long for the staging file and has left
nothing. -/
theorem writeStaged_at (hb : Sequence.batch { template := o.template } count = .ok b)
    (hs : w.store.WellFormed) (hname : w.store.resolve .name path = .ok target)
    (hplace : w.store.IsPlace target.location)
    (hreplace : w.store.grant .replace target.location = .ok ()) {staged : Location}
    (hstages : w.store.Stages path staged) :
    Outcome
      (fun rows w' => rows = count ∧
        w'.store = (w.store.openAt target.location).holding (dataset o.style o.template count) ∧
        (w.store.stagedAt path staged).Fits (dataset o.style o.template count))
      (fun _ w' => w'.store = w.store ∧
        ¬(w.store.stagedAt path staged).Fits (dataset o.style o.template count))
      ((writeStaged o b path : StateM World (Except FileFault Nat)).run w) := by
  have huse := Store.resolve_use_of_make (hs.make_of_name hname hplace)
  -- the staging file gets its permission bits and can be moved to the place
  have hmoved : ∀ text, ((w.store.stagedAt path staged).holding text).rename staged path =
      .ok ((w.store.openAt target.location).holding text) := by
    intro text
    rw [Store.stagedAt, Store.adoptedMode_eq huse hplace hstages.free]
    exact hs.rename_beside hname hplace hreplace hstages.free _ _
  refine (writeStaged_law hb path w).mono ?_ ?_
  · rintro rows w' ⟨hrows, loc, hloc, hfits, hrename⟩
    obtain rfl := hstages.unique hloc
    rw [hmoved] at hrename
    exact ⟨hrows, (Except.ok.inj hrename).symm, hfits⟩
  · rintro e w' ⟨hsame, hrefused⟩
    refine ⟨hsame, fun hfits => ?_⟩
    obtain ⟨e', herror⟩ := hrefused staged hstages hfits
    rw [hmoved] at herror
    cases herror

/-- **What a staged dataset leaves** where a path names a place for a file. -/
theorem populate_staged_at (hatomic : o.atomic = true) (hcount : count ≤ personCount)
    (hs : w.store.WellFormed) (hname : w.store.resolve .name path = .ok target)
    (hplace : w.store.IsPlace target.location)
    (hreplace : w.store.grant .replace target.location = .ok ()) {staged : Location}
    (hstages : w.store.Stages path staged) :
    Outcome
      (fun m w' => m = { rows := count, bytes := (dataset o.style o.template count).length } ∧
        w'.store = (w.store.openAt target.location).holding (dataset o.style o.template count) ∧
        (w.store.stagedAt path staged).Fits (dataset o.style o.template count))
      (fun _ w' => w'.store = w.store ∧
        ¬(w.store.stagedAt path staged).Fits (dataset o.style o.template count))
      ((populate o path count : StateM World (Except PopulateError Metrics)).run w) := by
  have hwrite := writeStaged_at (w := w.noted (.generating path count o.style o.atomic))
    (Sequence.batch_of_le o.template hcount) hs hname hplace hreplace hstages
  refine (Outcome.populate_filled hcount hname hplace (by rwa [if_pos hatomic])).mono
    (fun _ _ hdone => hdone) ?_
  rintro e w' ⟨fault, -, hfailed⟩
  exact hfailed

/-- A dataset is staged where a path names a place for a file, if a staging file can be made that may
be as long as the dataset, and it may be put there. -/
theorem populate_staged_of_fits (hatomic : o.atomic = true) (hcount : count ≤ personCount)
    (hs : w.store.WellFormed) (hname : w.store.resolve .name path = .ok target)
    (hplace : w.store.IsPlace target.location)
    (hreplace : w.store.grant .replace target.location = .ok ()) {staged : Location}
    (hstages : w.store.Stages path staged)
    (hfits : (w.store.stagedAt path staged).Fits (dataset o.style o.template count)) :
    ∃ w', (populate o path count : StateM World (Except PopulateError Metrics)).run w =
        (.ok { rows := count, bytes := (dataset o.style o.template count).length }, w') ∧
      w'.store = (w.store.openAt target.location).holding (dataset o.style o.template count) := by
  have houtcome := populate_staged_at hatomic hcount hs hname hplace hreplace hstages
  generalize (populate o path count : StateM World (Except PopulateError Metrics)).run w = r
    at houtcome ⊢
  cases houtcome with
  | ok hdone =>
      obtain ⟨rfl, hstore, -⟩ := hdone
      exact ⟨_, rfl, hstore⟩
  | error hfailed => exact (hfailed.2 hfits).elim

/-! ### Destinations that nothing is refused for -/

/-- Nothing but the limit stands in the way of a dataset of some size, in either mode. -/
structure Store.Unhindered (s : Store) (path : Path) (size : Nat) : Prop where
  /-- The path of the staging file is not too long. -/
  short : (s.stagingPath path).text.utf8ByteSize ≤ maxPath
  /-- The destination may be opened for writing and be replaced, and there is space for it. -/
  destination : ∀ target, s.resolve .name path = .ok target →
    s.grant .write target.location = .ok () ∧ s.grant .replace target.location = .ok () ∧
      s.HasSpace target.location size
  /-- The staging file may be made, and there is space for it beside the destination. -/
  staging : ∀ staged, s.WouldStage path staged →
    s.grant .write staged = .ok () ∧ s.HasSpace staged size

/-- A file that something has space for may be as long as that, if no limit is in the way. -/
theorem OpenFile.fits_iff_of_hasSpace {f : OpenFile} {text : Bytes}
    (hspace : f.base.HasSpace f.loc text.length) :
    f.Fits text ↔ ∀ k, f.base.limit = some k → text.length ≤ k := by
  rw [OpenFile.Fits, Store.le_bound_iff]
  exact and_iff_left hspace

/-- Where nothing stands in the way a staging file can be made, and there is space for it. -/
theorem Store.Unhindered.stages {s : Store} {size : Nat} (h : s.Unhindered path size)
    (hs : s.WellFormed) (hname : s.resolve .name path = .ok target)
    (hplace : s.IsPlace target.location) :
    ∃ staged, s.Stages path staged ∧ s.HasSpace staged size := by
  obtain ⟨staged, staging, hstage⟩ := hs.stage_beside hname hplace h.short
    fun staged hstaged => (h.staging staged hstaged).1
  have hfull : Path.join ⟨locationText s.here⟩ (stagingDirectory path) = s.stagingParent path := rfl
  exact ⟨staged, ⟨staging, _, hstage⟩, (h.staging staged (stagingNode_of_stage hfull hstage)).2⟩

/-! ### Places that paths name -/

/-- In a tree an ordinary path names the place where it leads after a file was put there. -/
theorem Store.WellFormed.named_of_node {s : Store} (hs : s.WellFormed) (hordinary : s.Ordinary path)
    {loc : Location} {content : ByteArray} {mode : Nat} {node : Node} (hplace : s.IsPlace loc)
    (hnode : (s.put loc (.file content mode)).node path = .ok (loc, node)) :
    ∃ target, s.resolve .name path = .ok target ∧ target.location = loc := by
  rw [node_eq_ok_iff, resolve_eq_ok_iff] at hnode
  obtain ⟨target, hleads, hloc⟩ := Leads.before_put hs.toRooted (hs.start path) hplace hnode.2
  have huse : s.resolve .use path = .ok target := resolve_eq_ok_iff.2 ⟨hnode.1, hleads⟩
  exact ⟨target, hordinary.name_of_use huse, hloc⟩

/-- **What a dataset leaves that has been written**, in either mode: its persons exist, the path names
a place for a file, and there is the dataset, with the permission bits that are kept. -/
theorem populate_done (hs : w.store.WellFormed) (hordinary : w.store.Ordinary path) {m : Metrics}
    {w' : World}
    (hrun : (populate o path count : StateM World (Except PopulateError Metrics)).run w =
      (.ok m, w')) :
    count ≤ personCount ∧
      m = { rows := count, bytes := (dataset o.style o.template count).length } ∧
      ∃ target, w.store.resolve .name path = .ok target ∧ w.store.IsPlace target.location ∧
        w'.store = w.store.put target.location
          (.file (dataset o.style o.template count).toByteArray
            (w.store.keptMode target.location)) := by
  have heffect := populate_effect o count hordinary
  rw [hrun] at heffect
  cases heffect with
  | ok hdone =>
      obtain ⟨hm, hcount, -⟩ := hdone
      refine ⟨hcount, hm, ?_⟩
      cases hmode : o.atomic with
      | true =>
          have houtcome := populate_staged_outcome (w := w) hmode count path
          rw [hrun] at houtcome
          cases houtcome with
          | ok hdone =>
              obtain ⟨-, ⟨staged, hstages, hrename⟩, -⟩ := hdone
              obtain ⟨loc, hplace, hstore, hnode⟩ := OpenFile.moved_of_rename
                (f := w.store.stagedAt path staged) hstages.free hordinary hrename
              obtain ⟨target, hname, rfl⟩ := hs.named_of_node hordinary hplace (hstore ▸ hnode)
              refine ⟨target, hname, hplace, ?_⟩
              have huse := Store.resolve_use_of_make (hs.make_of_name hname hplace)
              rw [hstore, Store.stagedAt, Store.adoptedMode_eq huse hplace hstages.free]
      | false =>
          rcases hordinary.create with ⟨e, hcreate⟩ | ⟨target, hname, hmake, hplace, hgrant⟩
          · cases hrun.symm.trans (populate_in_place_of_create hmode hcount hcreate)
          · have houtcome := populate_in_place_at hmode hcount hmake hplace hgrant
            rw [hrun] at houtcome
            cases houtcome with
            | ok hdone => exact ⟨target, hname, hplace, hdone.2.1⟩

/-- Where nothing but the limit stands in the way, a dataset is written in either mode exactly if its
persons exist, the path names a place for a file, and a file may be as long as the dataset. -/
theorem populate_iff (hs : w.store.WellFormed) (hordinary : w.store.Ordinary path)
    (hfree : count ≤ personCount →
      w.store.Unhindered path (dataset o.style o.template count).length) :
    (∃ m w', (populate o path count : StateM World (Except PopulateError Metrics)).run w =
        (.ok m, w')) ↔
      count ≤ personCount ∧ ∃ target, w.store.resolve .name path = .ok target ∧
        w.store.IsPlace target.location ∧
        ∀ k, w.store.limit = some k → (dataset o.style o.template count).length ≤ k := by
  -- at a place either mode comes to the same
  have hat : count ≤ personCount → ∀ target, w.store.resolve .name path = .ok target →
      w.store.IsPlace target.location →
      ((∃ m w', (populate o path count : StateM World (Except PopulateError Metrics)).run w =
          (.ok m, w')) ↔
        ∀ k, w.store.limit = some k → (dataset o.style o.template count).length ≤ k) := by
    intro hcount target hname hplace
    obtain ⟨hwrite, hreplace, hspace⟩ := (hfree hcount).destination target hname
    cases hmode : o.atomic with
    | true =>
        obtain ⟨staged, hstages, hstaged⟩ := (hfree hcount).stages hs hname hplace
        have houtcome := populate_staged_at hmode hcount hs hname hplace hreplace hstages
        have hfits := houtcome.ok_iff (fun _ _ hdone => hdone.2.2) fun _ _ hfailed => hfailed.2
        exact hfits.trans (OpenFile.fits_iff_of_hasSpace hstaged)
    | false =>
        have houtcome := populate_in_place_at hmode hcount (hs.make_of_name hname hplace) hplace
          hwrite
        refine (houtcome.ok_iff (fun _ _ hdone => hdone.2.2) ?_).trans
          (OpenFile.fits_iff_of_hasSpace hspace)
        rintro e w' ⟨cause, -, hcut⟩
        exact hcut.not_fits
  constructor
  · rintro ⟨m, w', hrun⟩
    obtain ⟨hcount, -, target, hname, hplace, -⟩ := populate_done hs hordinary hrun
    exact ⟨hcount, target, hname, hplace, (hat hcount target hname hplace).1 ⟨m, w', hrun⟩⟩
  · rintro ⟨hcount, target, hname, hplace, hlimit⟩
    exact (hat hcount target hname hplace).2 hlimit

/-- **A dataset is staged exactly if it is written in place**, whatever the sizes of the buffers, where
the path names a file or nothing and nothing but the limit stands in the way: the path of the staging
file is not too long, the system gives access to the destination and to the staging file, and there is
space for the dataset.  Both are done if the persons exist, the path names a place in the tree, and a
file may be as long as the dataset.  After both, whatever else could have been in the way, the store
is the same: the destination is the dataset, with the permission bits that it had or those of a new
file, nothing else has changed, and the metrics are those of the dataset. -/
theorem staged_iff_in_place (o : PopulateOptions) (size count : Nat) (hs : w.store.WellFormed)
    (hfile : ∀ loc node, w.store.resolve .name path = .ok (.found loc node) →
      ∃ content mode, node = .file content mode) :
    ((count ≤ personCount →
        w.store.Unhindered path (dataset o.style o.template count).length) →
      ((∃ m w', (populate { o with atomic := true, bufferSize := size } path count :
          StateM World (Except PopulateError Metrics)).run w = (.ok m, w')) ↔
        ∃ m w', (populate { o with atomic := false } path count :
          StateM World (Except PopulateError Metrics)).run w = (.ok m, w')) ∧
      ((∃ m w', (populate { o with atomic := false } path count :
          StateM World (Except PopulateError Metrics)).run w = (.ok m, w')) ↔
        count ≤ personCount ∧ ∃ target, w.store.resolve .name path = .ok target ∧
          w.store.IsPlace target.location ∧
          ∀ k, w.store.limit = some k → (dataset o.style o.template count).length ≤ k)) ∧
      ∀ m₁ w₁ m₂ w₂,
        (populate { o with atomic := true, bufferSize := size } path count :
          StateM World (Except PopulateError Metrics)).run w = (.ok m₁, w₁) →
        (populate { o with atomic := false } path count :
          StateM World (Except PopulateError Metrics)).run w = (.ok m₂, w₂) →
        w₁.store = w₂.store ∧ m₁ = m₂ ∧
          ∃ text, text = 0x5b :: [0x2c].intercalate ((List.range count).map fun i =>
              (Person.ofIndex o.template i).toJson.text o.style) ++ [0x5d] ∧
            m₁ = { rows := count, bytes := text.length } ∧
            ∃ target mode, w.store.resolve .name path = .ok target ∧
              w₁.store = w.store.put target.location (.file text.toByteArray mode) ∧
              (∀ content mode', w.store.get? target.location = some (.file content mode') →
                mode = mode') ∧
              (w.store.get? target.location = none →
                mode = Store.unmasked 0o666 w.store.umask) := by
  have hordinary : w.store.Ordinary path := by
    intro loc node hname
    obtain ⟨content, mode, rfl⟩ := hfile loc node hname
    exact id
  refine ⟨fun hfree => ?_, ?_⟩
  · have hstaged := populate_iff (o := { o with atomic := true, bufferSize := size }) hs hordinary
      hfree
    have hplain := populate_iff (o := { o with atomic := false }) hs hordinary hfree
    exact ⟨hstaged.trans hplain.symm, hplain⟩
  · intro m₁ w₁ m₂ w₂ hrun₁ hrun₂
    obtain ⟨-, hm₁, target, hname, -, hstore₁⟩ := populate_done hs hordinary hrun₁
    obtain ⟨-, hm₂, target', hname', -, hstore₂⟩ := populate_done hs hordinary hrun₂
    obtain rfl : target' = target := Except.ok.inj (hname'.symm.trans hname)
    refine ⟨hstore₁.trans hstore₂.symm, hm₁.trans hm₂.symm, dataset o.style o.template count,
      dataset_eq _ _ _, hm₁, target', _, hname, hstore₁, ?_, ?_⟩
    · intro content mode hget
      rw [Store.keptMode, hget]
    · intro hget
      rw [Store.keptMode, hget, Store.fileMode]

/-- On a disk that has space for a dataset beside all its files, nothing stands in the way of an
ordinary user, unless the destination is a file that he may not write to. -/
theorem Store.unhindered_of_disk {s : Store} {capacity size : Nat}
    (hspace : s.space = diskSpace capacity) (hrefusal : s.refusal = ownerRefusal)
    (hshort : (s.stagingPath path).text.utf8ByteSize ≤ maxPath)
    (hsize : size + usedSpace s.entries ≤ capacity)
    (hmode : ∀ loc content mode, s.resolve .name path = .ok (.found loc (.file content mode)) →
      mode &&& 0o200 ≠ 0) : s.Unhindered path size where
  short := hshort
  destination := by
    intro target hname
    refine ⟨grant_write_of_mode hrefusal ?_, grant_replace hrefusal _, hasSpace_of_disk hspace hsize _⟩
    intro content mode hfile
    have hget := (resolve_eq_ok_iff.1 hname).2.get?_location
    cases target with
    | free parent name => cases hget.symm.trans hfile
    | found loc node =>
        obtain rfl := Option.some.inj (hget.symm.trans hfile)
        exact hmode loc content mode hname
  staging := fun _ hstaged =>
    ⟨grant_write_of_free hrefusal hstaged.free, hasSpace_of_disk hspace hsize _⟩

/-- Two persons are written to a new file and staged for it, through a buffer of one byte, by an
ordinary user on a disk of four thousand bytes, and the two stores are the same. -/
theorem staged_iff_in_place_new_file :
    let w : World :=
      ⟨{ Store.bare with space := Store.diskSpace 4000, refusal := Store.ownerRefusal }, []⟩
    ∃ m w₁ w₂,
      (populate { atomic := true, bufferSize := 1 } ⟨"data.json"⟩ 2 :
        StateM World (Except PopulateError Metrics)).run w = (.ok m, w₁) ∧
      (populate {} ⟨"data.json"⟩ 2 :
        StateM World (Except PopulateError Metrics)).run w = (.ok m, w₂) ∧
      w₁.store = w₂.store := by
  intro w
  have hs : w.store.WellFormed := Store.wellFormed_of_root rfl rfl
  have hname : ∀ p, w.store.resolve p ⟨"data.json"⟩ = .ok (.free [] "data.json") :=
    Store.resolve_bare rfl rfl
  have hfile : ∀ loc node, w.store.resolve .name ⟨"data.json"⟩ = .ok (.found loc node) →
      ∃ content mode, node = .file content mode := by
    intro loc node hfound
    cases (hname .name).symm.trans hfound
  have hplace : w.store.IsPlace ["data.json"] := .inl rfl
  have hlaw := staged_iff_in_place {} 1 2 hs hfile
  have hfree : w.store.Unhindered ⟨"data.json"⟩ (dataset .compact {} 2).length := by
    refine Store.unhindered_of_disk rfl rfl (by decide +kernel) (by decide +kernel) ?_
    intro loc content mode hfound
    cases (hname .name).symm.trans hfound
  have hiff := hlaw.1 fun _ => hfree
  obtain ⟨m₂, w₂, hrun₂⟩ := hiff.2.2 ⟨by decide, _, hname .name, hplace, fun k hk => by cases hk⟩
  obtain ⟨m₁, w₁, hrun₁⟩ := hiff.1.2 ⟨m₂, w₂, hrun₂⟩
  obtain ⟨hstore, rfl, -⟩ := hlaw.2 m₁ w₁ m₂ w₂ hrun₁ hrun₂
  exact ⟨m₁, w₁, w₂, hrun₁, hrun₂, hstore⟩

/-! ### What is refused in one mode only -/

/-- A staged dataset is refused if its staging file is. -/
theorem populate_staged_refused {e : FileFault} (hatomic : o.atomic = true)
    (hcount : count ≤ personCount) (hstage : w.store.stage (stagingDirectory path) = .error e) :
    (populate o path count : StateM World (Except PopulateError Metrics)).run w =
      (.error (.file path e), w.noted (.generating path count o.style o.atomic)) := by
  have hrefused : (Disk.stage (stagingDirectory path) : StateM World _).run
      (w.noted (.generating path count o.style o.atomic)) =
        (.error e, w.noted (.generating path count o.style o.atomic)) :=
    World.run_stage_of_error hstage
  unfold populate
  rw [run_bind, World.run_note, Sequence.batch_of_le o.template hcount]
  show StateT.run (_ >>= _) _ = _
  rw [if_pos hatomic, run_bind]
  unfold writeStaged
  rw [run_bind, hrefused]
  rfl

/-- A path that is short enough in place and too long for staging: the destination is free, an
empty dataset is written there in place, and it cannot be staged. -/
theorem staged_too_far :
    Store.oneDirectory.WellFormed ∧
      Store.oneDirectory.resolve .name (Path.behindSlashes 4084) = .ok (.free ["d"] "f") ∧
      (∃ m w', (populate {} (Path.behindSlashes 4084) 0 :
        StateM World (Except PopulateError Metrics)).run ⟨.oneDirectory, []⟩ = (.ok m, w')) ∧
      ∃ e w', (populate { atomic := true } (Path.behindSlashes 4084) 0 :
        StateM World (Except PopulateError Metrics)).run ⟨.oneDirectory, []⟩ = (.error e, w') := by
  have hs := Store.wellFormed_oneDirectory
  have hname := Store.resolve_behindSlashes 4084 (by decide)
  have hplace : Store.oneDirectory.IsPlace ["d", "f"] := .inl rfl
  refine ⟨hs, hname, ?_, ?_⟩
  · obtain ⟨w', hrun, -⟩ := populate_in_place_of_fits (o := {}) (w := ⟨.oneDirectory, []⟩) rfl
      (Nat.zero_le _) (hs.make_of_name hname hplace) hplace rfl (.of_bound_eq_none rfl _)
    exact ⟨_, w', hrun⟩
  · have hfar : Store.maxPath <
        (Store.oneDirectory.stagingPath (Path.behindSlashes 4084)).text.utf8ByteSize :=
      Nat.lt_of_lt_of_le (by decide) (utf8ByteSize_stagingPath_behindSlashes 4084 _)
    obtain ⟨e, hstage⟩ := Store.stage_too_far hfar
    exact ⟨_, _, populate_staged_refused (o := { atomic := true }) (w := ⟨.oneDirectory, []⟩) rfl
      (Nat.zero_le _) hstage⟩

/-- A disk that is full but for what the destination takes up: an empty dataset is written in the place
of another one, and there is no space to stage it beside. -/
theorem staged_without_space :
    let w : World :=
      ⟨{ Store.oneFile (utf8 "[]").toByteArray 0o644 with space := Store.diskSpace 2 }, []⟩
    (∃ m w', (populate {} ⟨"data.json"⟩ 0 :
        StateM World (Except PopulateError Metrics)).run w = (.ok m, w')) ∧
      ∃ e w', (populate { atomic := true } ⟨"data.json"⟩ 0 :
        StateM World (Except PopulateError Metrics)).run w = (.error e, w') ∧
          w'.store = w.store := by
  intro w
  have hs : w.store.WellFormed := Store.wellFormed_oneFile rfl rfl
  have hfound : ∀ p, w.store.resolve p ⟨"data.json"⟩ =
      .ok (.found ["data.json"] (.file (utf8 "[]").toByteArray 0o644)) :=
    Store.resolve_oneFile rfl rfl
  have hplace : w.store.IsPlace ["data.json"] := .inr ⟨_, _, rfl⟩
  refine ⟨?_, ?_⟩
  · have hfits : (w.store.openAt ["data.json"]).Fits (dataset .compact {} 0) := by
      intro k e hk
      have hbound : w.store.bound ["data.json"] = some (2, .noSpace) := by decide +kernel
      obtain ⟨rfl, -⟩ := Prod.mk.inj (Option.some.inj (hbound.symm.trans hk))
      decide
    obtain ⟨w', hrun, -⟩ := populate_in_place_of_fits (o := {}) rfl (Nat.zero_le personCount)
      (hfound .make) hplace rfl hfits
    exact ⟨_, w', hrun⟩
  · obtain ⟨staged, staging, hstage⟩ := hs.stage_beside (hfound .name) hplace (by decide +kernel)
      fun _ _ => rfl
    have hstages : w.store.Stages ⟨"data.json"⟩ staged := ⟨staging, _, hstage⟩
    have hbound : w.store.bound staged = some (0, .noSpace) := by
      rw [Store.bound, Store.others_of_free hstages.free]
      rfl
    have houtcome := populate_staged_at (o := { atomic := true }) rfl (Nat.zero_le personCount) hs
      (hfound .name) hplace rfl hstages
    generalize (populate { atomic := true } ⟨"data.json"⟩ 0 :
      StateM World (Except PopulateError Metrics)).run w = r at houtcome ⊢
    cases houtcome with
    | ok hdone => exact absurd (hdone.2.2 0 .noSpace hbound) (by decide)
    | error hfailed => exact ⟨_, _, rfl, hfailed.1⟩

/-- A file that its user may not write to: an empty dataset cannot be written there in place, and it is
staged and takes the place of the file. -/
theorem staged_over_protected :
    let w : World := ⟨{ Store.oneFile .empty 0o444 with refusal := Store.ownerRefusal }, []⟩
    (∃ e w', (populate {} ⟨"data.json"⟩ 0 :
        StateM World (Except PopulateError Metrics)).run w = (.error e, w') ∧
          w'.store = w.store) ∧
      ∃ m w', (populate { atomic := true } ⟨"data.json"⟩ 0 :
        StateM World (Except PopulateError Metrics)).run w = (.ok m, w') := by
  intro w
  have hs : w.store.WellFormed := Store.wellFormed_oneFile rfl rfl
  have hfound : ∀ p, w.store.resolve p ⟨"data.json"⟩ =
      .ok (.found ["data.json"] (.file .empty 0o444)) := Store.resolve_oneFile rfl rfl
  have hplace : w.store.IsPlace ["data.json"] := .inr ⟨_, _, rfl⟩
  obtain ⟨w₁, hrefused, hsame⟩ := populate_in_place_protected
  obtain ⟨staged, staging, hstage⟩ := hs.stage_beside (hfound .name) hplace (by decide +kernel)
    fun _ hstaged => Store.grant_write_of_free rfl hstaged.free
  obtain ⟨w₂, hrun, -⟩ := populate_staged_of_fits (o := { atomic := true }) rfl
    (Nat.zero_le personCount) hs (hfound .name) hplace rfl ⟨staging, _, hstage⟩
    (.of_bound_eq_none rfl _)
  exact ⟨⟨_, w₁, hrefused, hsame⟩, _, w₂, hrun⟩

/-- **Where something else stands in the way, it may do so in one mode only**: the path of the staging
file, the space beside the destination, or the right to write to it. -/
theorem staged_unlike_in_place :
    (∃ (w : World) (path : Path),
        (∃ m w', (populate {} path 0 :
          StateM World (Except PopulateError Metrics)).run w = (.ok m, w')) ∧
        (∃ e w', (populate { atomic := true } path 0 :
          StateM World (Except PopulateError Metrics)).run w = (.error e, w')) ∧
        w.store.resolve .name path = .ok (.free ["d"] "f") ∧ w.store.limit = none) ∧
      (∃ w : World,
        (∃ m w', (populate {} ⟨"data.json"⟩ 0 :
          StateM World (Except PopulateError Metrics)).run w = (.ok m, w')) ∧
        (∃ e w', (populate { atomic := true } ⟨"data.json"⟩ 0 :
          StateM World (Except PopulateError Metrics)).run w = (.error e, w')) ∧
        w.store.get? ["data.json"] = some (.file (utf8 "[]").toByteArray 0o644)) ∧
      ∃ w : World,
        (∃ e w', (populate {} ⟨"data.json"⟩ 0 :
          StateM World (Except PopulateError Metrics)).run w = (.error e, w')) ∧
        (∃ m w', (populate { atomic := true } ⟨"data.json"⟩ 0 :
          StateM World (Except PopulateError Metrics)).run w = (.ok m, w')) ∧
        w.store.get? ["data.json"] = some (.file .empty 0o444) := by
  obtain ⟨-, hname, hplain, hstaged⟩ := staged_too_far
  obtain ⟨hplain₂, e₂, w₂, hstaged₂, -⟩ := staged_without_space
  obtain ⟨⟨e₃, w₃, hplain₃, -⟩, hstaged₃⟩ := staged_over_protected
  exact ⟨⟨⟨.oneDirectory, []⟩, _, hplain, hstaged, hname, rfl⟩,
    ⟨_, hplain₂, ⟨e₂, w₂, hstaged₂⟩, rfl⟩, ⟨_, ⟨e₃, w₃, hplain₃⟩, hstaged₃, rfl⟩⟩

end Roster
