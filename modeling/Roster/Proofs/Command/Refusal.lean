/-
**What is refused leaves no trace.**

A run of presets first finds out whether it can be done at all: the presets must be there, no two of
them of one name, and each chosen name must be one of theirs, wherever it stands among the others.
Only then is a directory made and a dataset written.  So there are two kinds of failures.  One that
has to do with the presets or with a name leaves the world as it was; and when a directory or a dataset
is at fault, the presets were in order and all names were known.

Main definitions:

* `Roster.Defines` — the presets that a source defines;
* `Roster.Accepted`, `Roster.Refused` — a run can be done, or one of the reasons why it can not;
* `Roster.CommandError.IsLate` — a failure of a directory or of a dataset.

Main results:

* `Roster.refused_iff` — **the reasons are complete**;
* `Roster.run_of_not_accepted`, `Roster.isLate_of_accepted` — the two kinds of failures;
* `Roster.runPresets_refused` — **a run that is refused leaves no trace**, and a late failure is that
  of a run that could be done.
-/

import Roster.Proofs.Command.Presets
import Roster.Proofs.Preset.Selection

set_option relaxedAutoImplicit false
set_option autoImplicit false

namespace Roster

/-! ### Sources -/

/-- The presets that a source defines: the standard ones without a file, else those of its content, no
two of the same name. -/
def Defines (s : Store) : Option Path → PresetSet → Prop
  | none, set => set = .builtin
  | some path, set => ∃ content text, s.content path = .ok content ∧
      String.fromUTF8? content = some text ∧ PresetSet.ofYaml text = .ok set ∧ set.names.Nodup

theorem Defines.unique {s : Store} {source : Option Path} {set set' : PresetSet}
    (h : Defines s source set) (h' : Defines s source set') : set = set' := by
  cases source with
  | none => exact Eq.trans h (Eq.symm h')
  | some path =>
      obtain ⟨content, text, hcontent, htext, hset, -⟩ := h
      obtain ⟨content', text', hcontent', htext', hset', -⟩ := h'
      obtain rfl := Except.ok.inj (hcontent.symm.trans hcontent')
      obtain rfl := Option.some.inj (htext.symm.trans htext')
      exact Except.ok.inj (hset.symm.trans hset')

theorem PresetSet.ofContent_eq_ok_iff {content : ByteArray} {set : PresetSet} :
    ofContent content = .ok set ↔
      ∃ text, String.fromUTF8? content = some text ∧ ofYaml text = .ok set ∧ set.names.Nodup := by
  unfold ofContent
  cases String.fromUTF8? content with
  | none => simp
  | some text => simp [parse_eq_ok_iff]

section

variable {source : Option Path} {set : PresetSet} {w w' : World} {e : CommandError}

theorem run_presetsOf_some (path : Path) (w : World) :
    ((presetsOf (some path) : StateM World _).run w).1 =
      match w.store.content path with
      | .error e => .error (.load path (.unreadable e.cause))
      | .ok content =>
        match PresetSet.ofContent content with
        | .error e => .error (.load path e)
        | .ok set => .ok set := by
  rw [presetsOf, run_bind, loadPresets, run_bind, World.run_content]
  cases w.store.content path with
  | error e => rfl
  | ok content =>
      dsimp only
      rw [run_pure]
      cases PresetSet.ofContent content <;> rfl

/-- Presets are loaded exactly if the source defines them. -/
theorem presetsOf_eq_ok_iff :
    ((presetsOf source : StateM World _).run w).1 = .ok set ↔ Defines w.store source set := by
  cases source with
  | none =>
      show Except.ok PresetSet.builtin = .ok set ↔ set = .builtin
      rw [Except.ok.injEq, eq_comm]
  | some path =>
      rw [run_presetsOf_some, Defines]
      cases w.store.content path with
      | error e => simp
      | ok content =>
          simp only [Except.ok.injEq, exists_and_left, exists_eq_left']
          rw [← PresetSet.ofContent_eq_ok_iff]
          cases PresetSet.ofContent content <;> simp

/-- What keeps presets from being loaded is told as that. -/
theorem presetsOf_eq_error (h : ((presetsOf source : StateM World _).run w).1 = .error e) :
    ∃ path cause, e = .load path cause := by
  cases source with
  | none => cases h
  | some path =>
      rw [run_presetsOf_some] at h
      split at h
      · exact ⟨path, _, (Except.error.inj h).symm⟩
      split at h
      · exact ⟨path, _, (Except.error.inj h).symm⟩
      · cases h

end

/-! ### Runs -/

/-- A run of presets can be done: its source defines presets, and each name is one of theirs. -/
def Accepted (s : Store) (run : PresetRun) : Prop :=
  ∃ set, Defines s run.source set ∧ ∀ name ∈ run.only, name ∈ set.names

/-- Why a run of presets can not be done. -/
inductive Refused (s : Store) (run : PresetRun) : Prop where
  /-- The file cannot be read. -/
  | unreadable {path : Path} {e : Store.ReadError} (hsource : run.source = some path)
      (h : s.content path = .error e)
  /-- The file holds no text. -/
  | notText {path : Path} {content : ByteArray} (hsource : run.source = some path)
      (h : s.content path = .ok content) (htext : String.fromUTF8? content = none)
  /-- The text is not that of presets. -/
  | malformed {path : Path} {content : ByteArray} {text : String} {e : Yaml.Error}
      (hsource : run.source = some path) (h : s.content path = .ok content)
      (htext : String.fromUTF8? content = some text) (hset : PresetSet.ofYaml text = .error e)
  /-- Two presets have the same name. -/
  | repeated {path : Path} {content : ByteArray} {text : String} {set : PresetSet}
      (hsource : run.source = some path) (h : s.content path = .ok content)
      (htext : String.fromUTF8? content = some text) (hset : PresetSet.ofYaml text = .ok set)
      (hnames : ¬set.names.Nodup)
  /-- A name is not that of a preset, wherever it stands. -/
  | unknown {set : PresetSet} {name : String} (hset : Defines s run.source set)
      (hname : name ∈ run.only) (hno : name ∉ set.names)

/-- The failure of a directory or of a dataset. -/
def CommandError.IsLate : CommandError → Prop
  | .directory _ _ | .preset _ _ _ _ => True
  | _ => False

/-- **The reasons are complete**: a run can be done unless one of them stands against it. -/
theorem refused_iff {s : Store} {run : PresetRun} : Refused s run ↔ ¬Accepted s run := by
  constructor
  · rintro h ⟨set, hdefines, hnames⟩
    cases h with
    | unreadable hsource h =>
        rw [hsource] at hdefines
        obtain ⟨content, text, hcontent, -⟩ := hdefines
        cases h.symm.trans hcontent
    | notText hsource h htext =>
        rw [hsource] at hdefines
        obtain ⟨content, text, hcontent, htext', -⟩ := hdefines
        obtain rfl := Except.ok.inj (h.symm.trans hcontent)
        cases htext.symm.trans htext'
    | malformed hsource h htext hset =>
        rw [hsource] at hdefines
        obtain ⟨content, text, hcontent, htext', hset', -⟩ := hdefines
        obtain rfl := Except.ok.inj (h.symm.trans hcontent)
        obtain rfl := Option.some.inj (htext.symm.trans htext')
        cases hset.symm.trans hset'
    | repeated hsource h htext hset hrepeated =>
        rw [hsource] at hdefines
        obtain ⟨content, text, hcontent, htext', hset', hnodup⟩ := hdefines
        obtain rfl := Except.ok.inj (h.symm.trans hcontent)
        obtain rfl := Option.some.inj (htext.symm.trans htext')
        obtain rfl := Except.ok.inj (hset.symm.trans hset')
        exact hrepeated hnodup
    | unknown hset hname hno =>
        obtain rfl := hset.unique hdefines
        exact hno (hnames _ hname)
  · intro hno
    have hunknown : ∀ {set}, Defines s run.source set → Refused s run := by
      intro set hset
      by_cases hnames : ∀ name ∈ run.only, name ∈ set.names
      · exact absurd ⟨set, hset, hnames⟩ hno
      · simp only [Classical.not_forall] at hnames
        obtain ⟨name, hname, hmissing⟩ := hnames
        exact .unknown hset hname hmissing
    cases hsource : run.source with
    | none => exact hunknown (by rw [hsource]; rfl)
    | some path =>
        cases hcontent : s.content path with
        | error e => exact .unreadable hsource hcontent
        | ok content =>
            cases htext : String.fromUTF8? content with
            | none => exact .notText hsource hcontent htext
            | some text =>
                cases hset : PresetSet.ofYaml text with
                | error e => exact .malformed hsource hcontent htext hset
                | ok set =>
                    by_cases hnodup : set.names.Nodup
                    · exact hunknown (by rw [hsource]; exact ⟨_, _, hcontent, htext, hset, hnodup⟩)
                    · exact .repeated hsource hcontent htext hset hnodup

section

variable {run : PresetRun} {w w' : World} {e : CommandError}

/-- A run that cannot be done fails at once: nothing is made and nothing is written. -/
theorem run_of_not_accepted (h : ¬Accepted w.store run) :
    ∃ e, (runPresets run : StateM World _).run w = (.error e, w) ∧ ¬e.IsLate := by
  have hworld := run_presetsOf run.source w
  cases hload : ((presetsOf run.source : StateM World _).run w).1 with
  | error e =>
      have hloaded : (presetsOf run.source : StateM World _).run w = (.error e, w) :=
        Prod.ext hload hworld
      obtain ⟨path, cause, rfl⟩ := presetsOf_eq_error hload
      refine ⟨.load path cause, ?_, id⟩
      rw [runPresets, run_bind, hloaded]
      rfl
  | ok set =>
      have hloaded : (presetsOf run.source : StateM World _).run w = (.ok set, w) :=
        Prod.ext hload hworld
      cases hselect : set.select run.only run.includeDisabled with
      | error unknown =>
          refine ⟨.select (.unknown unknown.name), ?_, id⟩
          rw [runPresets, run_bind, hloaded]
          dsimp only
          rw [hselect]
          rfl
      | ok presets =>
          have hnames := (PresetSet.exists_select_iff _).1 ⟨presets, hselect⟩
          exact absurd ⟨set, presetsOf_eq_ok_iff.1 hload, hnames⟩ h

/-- What keeps a dataset from being written is told of its preset. -/
theorem isLate_of_writePresets {write : WriteOptions} {dir : Path} {ps : List Preset}
    (h : (writePresets write dir ps : StateM World _).run w = (.error e, w')) : e.IsLate := by
  induction ps generalizing w with
  | nil => cases h
  | cons p rest ih =>
      rw [run_writePresets_cons] at h
      rcases hfirst : (populate write.populate (p.outputPath dir) p.count : StateM World _).run w
        with ⟨cause | metrics, w₁⟩
      · rw [hfirst] at h
        obtain rfl := Except.error.inj (Prod.mk.inj h).1
        trivial
      · rw [hfirst] at h
        dsimp only at h
        rcases hrest : (writePresets write dir rest : StateM World _).run
          (w₁.noted (.preset p.name metrics)) with ⟨e' | results, w₂⟩
        · rw [hrest] at h
          obtain ⟨he, rfl⟩ := Prod.mk.inj h
          obtain rfl := Except.error.inj he
          exact ih hrest
        · rw [hrest] at h
          cases h

/-- What keeps the directory from being made is told of it. -/
theorem isLate_of_prepareDirectory {create : Bool} {dir : Path}
    (h : ((prepareDirectory create dir : StateM World _).run w).1 = .error e) : e.IsLate := by
  cases create with
  | false => cases h
  | true =>
      rw [prepareDirectory, if_pos rfl, run_bind, World.run_makeDirectories] at h
      rcases hmake : (w.store.makeDirectories dir).1 with cause | ⟨⟩
      · rw [hmake] at h
        obtain rfl := Except.error.inj h
        trivial
      · rw [hmake] at h
        cases h

/-- A run that can be done fails only at the directory or at a dataset. -/
theorem isLate_of_accepted (haccepted : Accepted w.store run)
    (h : (runPresets run : StateM World _).run w = (.error e, w')) : e.IsLate := by
  obtain ⟨set, hdefines, hnames⟩ := haccepted
  have hload := presetsOf_eq_ok_iff.2 hdefines
  obtain ⟨presets, hselect⟩ :=
    (PresetSet.exists_select_iff run.includeDisabled).2 hnames
  generalize hdir : (run.outputDirectory <|> set.outputDirectory).getD
    PresetSet.defaultDirectory = dir
  rcases hprepare : (prepareDirectory run.createDirectory dir : StateM World _).run w
    with ⟨e' | ⟨⟩, w₁⟩
  · have hlate : e'.IsLate := isLate_of_prepareDirectory (congrArg Prod.fst hprepare)
    have hloaded : (presetsOf run.source : StateM World _).run w = (.ok set, w) :=
      Prod.ext hload (run_presetsOf run.source w)
    rw [runPresets, run_bind, hloaded] at h
    dsimp only at h
    rw [hselect] at h
    dsimp only at h
    rw [hdir, run_bind, hprepare] at h
    obtain ⟨he, -⟩ := Prod.mk.inj h
    exact Except.error.inj he ▸ hlate
  · rw [run_runPresets hload hselect hdir hprepare] at h
    exact isLate_of_writePresets h

/-- **A run that is refused leaves no trace**: if the file of the presets cannot be read, is no text or
no text of presets or defines a name twice, or if a name is not defined, wherever it stands among
those that are chosen, then the run fails and the world is as it was.  Of the runs that fail, those
that do so at the directory or later are the ones that could be done, and no others change
anything. -/
theorem runPresets_refused (run : PresetRun) (w : World) :
    (Refused w.store run → ∃ e, (runPresets run : StateM World _).run w = (.error e, w)) ∧
      ∀ e w', (runPresets run : StateM World _).run w = (.error e, w') →
        (e.IsLate ↔ Accepted w.store run) ∧ (w' ≠ w → Accepted w.store run) := by
  constructor
  · intro hrefused
    obtain ⟨e, he, -⟩ := run_of_not_accepted (refused_iff.1 hrefused)
    exact ⟨e, he⟩
  · intro e w' hrun
    by_cases haccepted : Accepted w.store run
    · exact ⟨iff_of_true (isLate_of_accepted haccepted hrun) haccepted, fun _ => haccepted⟩
    · obtain ⟨e', he', hlate⟩ := run_of_not_accepted haccepted
      obtain ⟨he, hw⟩ := Prod.mk.inj (hrun.symm.trans he')
      obtain rfl := Except.error.inj he
      exact ⟨iff_of_false hlate haccepted, fun hne => absurd hw hne⟩

end

/-- A standard preset and an unknown one are chosen, and no directory is made for them; and a directory
that has no name cannot be made for the standard one alone, which is known. -/
theorem runPresets_refused_nope :
    (∃ e, (runPresets { only := ["sample1", "nope"], createDirectory := true } :
      StateM World _).run ⟨.bare, []⟩ = (.error e, ⟨.bare, []⟩)) ∧
    Accepted .bare
      { only := ["sample1"], outputDirectory := some ⟨"\x00"⟩, createDirectory := true } := by
  constructor
  · refine (runPresets_refused _ _).1 ?_
    exact @Refused.unknown _ _ .builtin "nope" rfl (by decide) (by decide)
  · have hrun : ∃ e w', (runPresets
        { only := ["sample1"], outputDirectory := some ⟨"\x00"⟩, createDirectory := true } :
        StateM World _).run ⟨.bare, []⟩ = (.error e, w') ∧ e.IsLate := ⟨_, _, rfl, trivial⟩
    obtain ⟨e, w', hrun, hlate⟩ := hrun
    exact (((runPresets_refused _ _).2 e w' hrun).1).1 hlate

end Roster
