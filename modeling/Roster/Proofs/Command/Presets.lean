/-
**Presets are run one after the other.**

Running presets is writing their datasets in turn, up to the first that cannot be written.  Each
dataset is put at a place for a file, so it changes no other path, and what one preset has left can
be replaced by a later one but not be lost: at the end a file holds the dataset of the last preset
whose path denotes it.  After a failure the presets that come later have not been looked at.

The presets may share their files, by the same path or by different ones, and a preset may be
chosen more than once.  What a path denotes is asked of the last store; no run changes it.

Main definitions:

* `Roster.Store.Refilled` — what holds of a store that has had files put at places;
* `Roster.Preset.result` — what is shown for a preset;
* `Roster.HoldsLast` — a file holds the dataset of the last preset that denotes it.

Main results:

* `Roster.writePresets_outcome` — **what a list of presets leaves**, by induction on the list;
* `Roster.run_writePresets_stop` — **a preset that fails is the last one**;
* `Roster.runPresets_law` — the law of a whole run.
-/

import Roster.Command
import Roster.Proofs.Dataset.Effect

set_option relaxedAutoImplicit false
set_option autoImplicit false

namespace Roster

open Json

/-! ### Files at places -/

namespace Store

variable {s s' s'' : Store} {path : Path} {loc dest : Location} {node : Node}

/-- The file or directory that a path leads to is at this location. -/
def Denotes (s : Store) (path : Path) (loc : Location) : Prop :=
  ∃ node, s.node path = .ok (loc, node)

/-- What holds of a store that has had files put at places. -/
structure Refilled (s s' : Store) : Prop where
  /-- A path that led to a file leads to a file at the same location. -/
  file : ∀ path loc content mode, s.node path = .ok (loc, .file content mode) →
    ∃ content' mode', s'.node path = .ok (loc, .file content' mode')
  /-- Ordinary paths are ordinary. -/
  ordinary : ∀ path, s.Ordinary path → s'.Ordinary path

theorem Refilled.refl (s : Store) : s.Refilled s where
  file := fun _ _ content mode h => ⟨content, mode, h⟩
  ordinary := fun _ h => h

theorem Refilled.trans (h : s.Refilled s') (h' : s'.Refilled s'') : s.Refilled s'' where
  file := by
    intro path loc content mode hnode
    obtain ⟨content', mode', hnode'⟩ := h.file path loc content mode hnode
    exact h'.file path loc content' mode' hnode'
  ordinary := fun path hpath => h'.ordinary path (h.ordinary path hpath)

/-- A file that is put at a place leaves the paths to other files as they were. -/
theorem Refilled.put (hplace : s.IsPlace dest) (content : ByteArray) (mode : Nat) :
    s.Refilled (s.put dest (.file content mode)) where
  file := by
    intro path loc content₀ mode₀ hnode
    rw [node_eq_ok_iff, resolve_eq_ok_iff] at hnode
    by_cases hsame : loc = dest
    · subst hsame
      refine ⟨content, mode, ?_⟩
      rw [node_eq_ok_iff, resolve_eq_ok_iff]
      exact ⟨hnode.1, hnode.2.use_put hplace content mode⟩
    · refine ⟨content₀, mode₀, ?_⟩
      rw [node_eq_ok_iff, resolve_eq_ok_iff]
      exact ⟨hnode.1, hnode.2.put hplace hsame content mode⟩
  ordinary := fun _ h => h.put dest content mode

/-- What a path leads to is at its location. -/
theorem get?_of_node (h : s.node path = .ok (loc, node)) : s.get? loc = some node := by
  rw [node_eq_ok_iff, resolve_eq_ok_iff] at h
  exact h.2.get?_location

/-! ### Directories that are made -/

/-- The links and devices of a store were in another one. -/
def OldSpecials (s s' : Store) : Prop :=
  ∀ loc node, s'.get? loc = some node → node.IsSpecial → s.get? loc = some node

/-- Making a directory makes no link and no device. -/
theorem oldSpecials_makeDirectory (h : s.makeDirectory path = .ok s') : s.OldSpecials s' := by
  unfold makeDirectory at h
  cases hname : s.resolveName path with
  | error e =>
      rw [hname] at h
      cases h
  | ok target =>
      cases target with
      | found loc node =>
          rw [hname] at h
          cases h
      | free parent name =>
          rw [hname] at h
          obtain rfl := Except.ok.inj h
          intro loc node hget hspecial
          by_cases hloc : parent ++ [name] = loc
          · obtain rfl : Node.directory (directoryMode s.umask) = node := by
              simpa [hloc] using hget
            exact hspecial.elim
          · simpa [hloc] using hget

/-- Making directories makes no link and no device. -/
theorem oldSpecials_makeAll (ps : List Path) (s : Store) : s.OldSpecials (makeAll ps s).2 := by
  have hsame : ∀ s : Store, s.OldSpecials s := fun _ _ _ hget _ => hget
  induction ps generalizing s with
  | nil => exact hsame s
  | cons p parents ih =>
      unfold makeAll
      cases hfirst : s.makeDirectory p with
      | ok s₁ => exact oldSpecials_makeDirectory hfirst
      | error e =>
          dsimp only
          by_cases hmissing : e = .notFound
          · have hparents := ih s
            rw [if_pos hmissing]
            rcases hrest : makeAll parents s with ⟨_ | ⟨⟩, s₁⟩
            · rw [hrest] at hparents
              exact hparents
            · rw [hrest] at hparents
              dsimp only at hparents ⊢
              -- the parents are there now, and the directory is tried again
              cases hagain : s₁.makeDirectory p with
              | ok s₂ =>
                  intro loc node hget hspecial
                  exact hparents loc node (oldSpecials_makeDirectory hagain loc node hget hspecial)
                    hspecial
              | error e' =>
                  dsimp only
                  split <;> exact hparents
          · rw [if_neg hmissing]
            split <;> exact hsame s

end Store

/-! ### Presets in turn -/

/-- What is shown for a preset that has been written: its name, the number of its persons and the
length of its dataset. -/
def Preset.result (p : Preset) (style : Style) : String × Metrics :=
  (p.name, { rows := p.count, bytes := (dataset style {} p.count).length })

/-- The file at a location is the dataset of the last of some presets that denotes it. -/
def HoldsLast (style : Style) (dir : Path) (ps : List Preset) (s : Store) (loc : Location) : Prop :=
  ∃ earlier q later mode, ps = earlier ++ q :: later ∧
    s.node (q.outputPath dir) =
      .ok (loc, .file (dataset style {} q.count).toByteArray mode) ∧
    ∀ r ∈ later, ¬s.Denotes (r.outputPath dir) loc

section

variable {write : WriteOptions} {dir : Path} {p q : Preset} {ps earlier later rest : List Preset}
  {w w' wk : World} {results : List (String × Metrics)}

theorem HoldsLast.cons {style : Style} {s : Store} {loc : Location} (p : Preset)
    (h : HoldsLast style dir ps s loc) : HoldsLast style dir (p :: ps) s loc := by
  obtain ⟨earlier, q, later, mode, rfl, hnode, hlater⟩ := h
  exact ⟨p :: earlier, q, later, mode, rfl, hnode, hlater⟩

/-- What writing a list of presets comes to: its first preset, and if that succeeds the others. -/
theorem run_writePresets_cons (write : WriteOptions) (dir : Path) (p : Preset)
    (rest : List Preset) (w : World) :
    (writePresets write dir (p :: rest) : StateM World _).run w =
      match (populate write.populate (p.outputPath dir) p.count : StateM World _).run w with
      | (.error cause, w') => (.error (.preset p.name (p.outputPath dir) p.count cause), w')
      | (.ok metrics, w') =>
        match (writePresets write dir rest : StateM World _).run (w'.noted (.preset p.name metrics))
          with
        | (.error e, w'') => (.error e, w'')
        | (.ok results, w'') => (.ok ((p.name, metrics) :: results), w'') := by
  rw [writePresets, run_bind]
  rcases (populate write.populate (p.outputPath dir) p.count : StateM World _).run w
    with ⟨_ | metrics, w'⟩
  · rfl
  · dsimp only
    rw [run_bind, World.run_note, run_bind]
    rcases (writePresets write dir rest : StateM World _).run (w'.noted (.preset p.name metrics))
      with ⟨_ | _, w''⟩ <;> rfl

/-- **A preset that fails is the last one**: what it has left is what the run leaves. -/
theorem run_writePresets_stop {cause : PopulateError} (later : List Preset)
    (hearlier : (writePresets write dir earlier : StateM World _).run w = (.ok results, wk))
    (hfailed : (populate write.populate (p.outputPath dir) p.count : StateM World _).run wk =
      (.error cause, w')) :
    (writePresets write dir (earlier ++ p :: later) : StateM World _).run w =
      (.error (.preset p.name (p.outputPath dir) p.count cause), w') := by
  induction earlier generalizing w results with
  | nil =>
      have hstart : (writePresets write dir [] : StateM World _).run w = (.ok [], w) := rfl
      obtain ⟨-, rfl⟩ := Prod.mk.inj (hearlier.symm.trans hstart)
      rw [List.nil_append, run_writePresets_cons, hfailed]
  | cons p₀ earlier ih =>
      rw [run_writePresets_cons] at hearlier
      rw [List.cons_append, run_writePresets_cons]
      rcases hfirst : (populate write.populate (p₀.outputPath dir) p₀.count :
        StateM World _).run w with ⟨_ | metrics, w₀⟩
      · rw [hfirst] at hearlier
        cases hearlier
      · rw [hfirst] at hearlier
        dsimp only at hearlier ⊢
        rcases hrest : (writePresets write dir earlier : StateM World _).run
          (w₀.noted (.preset p₀.name metrics)) with ⟨_ | results', w₁⟩
        · rw [hrest] at hearlier
          cases hearlier
        · rw [hrest] at hearlier
          obtain ⟨-, rfl⟩ := Prod.mk.inj hearlier
          rw [ih hrest]

/-- A run of presets has failed at one of them: those before it have been written, it has changed
what a failure may change, and nothing has been done after that. -/
def Stopped (write : WriteOptions) (dir : Path) (ps : List Preset) (w : World) (e : CommandError)
    (w' : World) : Prop :=
  ∃ earlier p later results wk cause, ps = earlier ++ p :: later ∧
    (writePresets write dir earlier : StateM World _).run w = (.ok results, wk) ∧
    (populate write.populate (p.outputPath dir) p.count : StateM World _).run wk =
      (.error cause, w') ∧
    e = .preset p.name (p.outputPath dir) p.count cause ∧
    (write.atomic = true → w'.store = wk.store) ∧
    Confined wk.store (p.outputPath dir) w'.store

/-- **What a list of presets leaves.**  After a success there is a file where each path leads, and
each location is as it was, if no path denotes it, or it has the dataset of the last preset that
does.  After a failure the run has stopped at one of the presets. -/
theorem writePresets_outcome (write : WriteOptions) (dir : Path) (ps : List Preset) {w : World}
    (hordinary : ∀ p ∈ ps, w.store.Ordinary (p.outputPath dir)) :
    Outcome
      (fun results w' => results = ps.map (·.result write.style) ∧ w.store.Refilled w'.store ∧
        (∀ p ∈ ps, ∃ loc content mode,
          w'.store.node (p.outputPath dir) = .ok (loc, .file content mode)) ∧
        ∀ loc, (w'.store.get? loc = w.store.get? loc ∧
            ∀ p ∈ ps, ¬w'.store.Denotes (p.outputPath dir) loc) ∨
          HoldsLast write.style dir ps w'.store loc)
      (Stopped write dir ps w)
      ((writePresets write dir ps : StateM World _).run w) := by
  -- induction on the presets still to come, each of which starts where the one before has ended
  induction ps generalizing w with
  | nil =>
      have hstart : (writePresets write dir [] : StateM World _).run w = (.ok [], w) := rfl
      rw [hstart]
      exact .ok ⟨rfl, .refl _, by simp, fun loc => .inl ⟨rfl, by simp⟩⟩
  | cons p rest ih =>
      have heffect := populate_effect write.populate p.count (hordinary p List.mem_cons_self)
      rw [run_writePresets_cons]
      rcases hrun : (populate write.populate (p.outputPath dir) p.count : StateM World _).run w
        with ⟨cause | metrics, w₁⟩
      · rw [hrun] at heffect
        cases heffect with
        | error hfailed =>
            obtain ⟨hatomic, hconfined⟩ := hfailed
            exact .error ⟨[], p, rest, [], w, cause, rfl, rfl, hrun, rfl, hatomic, hconfined⟩
      rw [hrun] at heffect
      cases heffect with
      | ok hdone =>
          obtain ⟨hmetrics, -, loc₁, mode₁, hplace, hstore, hnode⟩ := hdone
          have hfirst : w.store.Refilled w₁.store := by
            rw [hstore]
            exact .put hplace _ _
          have hrest := ih (w := w₁.noted (.preset p.name metrics)) fun q hq =>
            hfirst.ordinary _ (hordinary q (List.mem_cons_of_mem _ hq))
          dsimp only
          rcases hrun' : (writePresets write dir rest : StateM World _).run
            (w₁.noted (.preset p.name metrics)) with ⟨e | results, w₂⟩
          · rw [hrun'] at hrest
            cases hrest with
            | error hstopped =>
                obtain ⟨earlier, q, later, results, wk, cause, rfl, hearlier, hfailed⟩ := hstopped
                refine .error ⟨p :: earlier, q, later, (p.name, metrics) :: results, wk, cause, rfl,
                  ?_, hfailed⟩
                rw [run_writePresets_cons, hrun]
                dsimp only
                rw [hearlier]
          · rw [hrun'] at hrest
            cases hrest with
            | ok hdone =>
                obtain ⟨rfl, hrefilled, hfiles, hlocs⟩ := hdone
                -- the first path still leads to where its dataset was put
                obtain ⟨content, mode, hstill⟩ := hrefilled.file _ loc₁ _ _ hnode
                refine .ok ⟨?_, hfirst.trans hrefilled, ?_, ?_⟩
                · rw [hmetrics]
                  rfl
                · intro q hq
                  rcases List.mem_cons.1 hq with rfl | hq
                  · exact ⟨loc₁, content, mode, hstill⟩
                  · exact hfiles q hq
                · intro loc
                  rcases hlocs loc with ⟨hsame, hnone⟩ | hlast
                  · have hput : w₂.store.get? loc = (w.store.put loc₁ (.file
                        (dataset write.style {} p.count).toByteArray mode₁)).get? loc := by
                      rw [hsame, World.store_noted, hstore]
                      rfl
                    by_cases hloc : loc₁ = loc
                    · -- nothing has been put there later, so it has the first dataset
                      subst hloc
                      have hfile := Store.get?_of_node hstill
                      rw [hput, Store.get?_put, if_pos rfl] at hfile
                      rw [← Option.some.inj hfile] at hstill
                      exact .inr ⟨[], p, rest, mode₁, rfl, hstill, hnone⟩
                    · rw [Store.get?_put, if_neg hloc] at hput
                      refine .inl ⟨hput, fun q hq => ?_⟩
                      rcases List.mem_cons.1 hq with rfl | hq
                      · rintro ⟨node, hother⟩
                        exact hloc (Prod.mk.inj (Except.ok.inj (hstill.symm.trans hother))).1
                      · exact hnone q hq
                  · exact .inr (hlast.cons p)

end

/-! ### Whole runs -/

section

variable {run : PresetRun} {set : PresetSet} {presets : List Preset} {dir : Path} {w w₁ : World}

/-- Loading presets changes nothing. -/
theorem run_presetsOf (source : Option Path) (w : World) :
    ((presetsOf source : StateM World _).run w).2 = w := by
  cases source with
  | none => rfl
  | some source =>
      rw [presetsOf, run_bind, loadPresets, run_bind, World.run_content]
      cases w.store.content source with
      | error e => rfl
      | ok content =>
          dsimp only
          rw [run_pure]
          cases PresetSet.ofContent content <;> rfl

/-- Preparing the directory makes no link and no device. -/
theorem oldSpecials_prepareDirectory {create : Bool} {result : Except CommandError Unit}
    (h : (prepareDirectory create dir : StateM World _).run w = (result, w₁)) :
    w.store.OldSpecials w₁.store := by
  cases create with
  | false =>
      obtain ⟨-, rfl⟩ := Prod.mk.inj h
      exact fun _ _ hget _ => hget
  | true =>
      have hstore : w₁.store = (w.store.makeDirectories dir).2 := by
        unfold prepareDirectory at h
        rw [if_pos rfl, run_bind, World.run_makeDirectories] at h
        rw [← (Prod.mk.inj h).2]
        cases (w.store.makeDirectories dir).1 <;> rfl
      rw [hstore]
      exact Store.oldSpecials_makeAll _ _

/-- A run with known presets and a directory that has been prepared writes the presets in turn. -/
theorem run_runPresets (hload : ((presetsOf run.source : StateM World _).run w).1 = .ok set)
    (hselect : set.select run.only run.includeDisabled = .ok presets)
    (hdir : (run.outputDirectory <|> set.outputDirectory).getD PresetSet.defaultDirectory = dir)
    (hprepare : (prepareDirectory run.createDirectory dir : StateM World _).run w = (.ok (), w₁)) :
    (runPresets run : StateM World _).run w =
      (writePresets run.write dir presets : StateM World _).run
        (w₁.noted (.running presets.length dir)) := by
  have hloaded : (presetsOf run.source : StateM World _).run w = (.ok set, w) :=
    Prod.ext hload (run_presetsOf run.source w)
  rw [runPresets, run_bind, hloaded]
  dsimp only
  rw [hselect]
  dsimp only
  rw [hdir, run_bind, hprepare]
  dsimp only
  rw [run_bind, World.run_note]

/-- **Presets are run one after the other, up to the first that fails**, if no link and no device is
where one of their paths leads.  After a success the results are those of the presets in their
order, and each path denotes a file that holds the dataset of the last preset denoting it.  A
failure is that of one preset, after those before it have been written: then nothing has changed
since, or, without staging, nothing but the file at its destination. -/
theorem runPresets_law (hload : ((presetsOf run.source : StateM World _).run w).1 = .ok set)
    (hselect : set.select run.only run.includeDisabled = .ok presets)
    (hdir : (run.outputDirectory <|> set.outputDirectory).getD PresetSet.defaultDirectory = dir)
    (hprepare : (prepareDirectory run.createDirectory dir : StateM World _).run w = (.ok (), w₁))
    (hplain : ∀ p ∈ presets, ∀ target node,
      w₁.store.resolve .name (p.outputPath dir) = .ok target →
      w.store.get? target.location = some node → ¬node.IsSpecial) :
    (∀ results w', (runPresets run : StateM World _).run w = (.ok results, w') →
      results = presets.map (·.result run.write.style) ∧
        ∀ p ∈ presets, ∃ loc, w'.store.Denotes (p.outputPath dir) loc ∧
          HoldsLast run.write.style dir presets w'.store loc) ∧
      (∀ e w', (runPresets run : StateM World _).run w = (.error e, w') →
        Stopped run.write dir presets (w₁.noted (.running presets.length dir)) e w') ∧
      ∀ earlier p later results wk cause w', presets = earlier ++ p :: later →
        (writePresets run.write dir earlier : StateM World _).run
          (w₁.noted (.running presets.length dir)) = (.ok results, wk) →
        (populate run.write.populate (p.outputPath dir) p.count : StateM World _).run wk =
          (.error cause, w') →
        (runPresets run : StateM World _).run w =
            (.error (.preset p.name (p.outputPath dir) p.count cause), w') ∧
          (run.write.atomic = true → w'.store = wk.store) ∧
          Confined wk.store (p.outputPath dir) w'.store := by
  have hordinary : ∀ p ∈ presets, w₁.store.Ordinary (p.outputPath dir) := by
    intro p hp loc node hname hspecial
    have hget : w₁.store.get? loc = some node :=
      (Store.resolve_eq_ok_iff.1 hname).2.get?_location
    exact hplain p hp _ node hname (oldSpecials_prepareDirectory hprepare loc node hget hspecial)
      hspecial
  have houtcome := writePresets_outcome run.write dir presets
    (w := w₁.noted (.running presets.length dir)) hordinary
  rw [run_runPresets hload hselect hdir hprepare]
  refine ⟨?_, ?_, ?_⟩
  · intro results w' hrun
    rw [hrun] at houtcome
    cases houtcome with
    | ok hdone =>
        obtain ⟨hresults, -, hfiles, hlocs⟩ := hdone
        refine ⟨hresults, fun p hp => ?_⟩
        obtain ⟨loc, content, mode, hnode⟩ := hfiles p hp
        have hdenotes : w'.store.Denotes (p.outputPath dir) loc := ⟨_, hnode⟩
        rcases hlocs loc with ⟨-, hnone⟩ | hlast
        · exact (hnone p hp hdenotes).elim
        · exact ⟨loc, hdenotes, hlast⟩
  · intro e w' hrun
    rw [hrun] at houtcome
    cases houtcome with
    | error hstopped => exact hstopped
  · rintro earlier p later results wk cause w' rfl hearlier hfailed
    refine ⟨run_writePresets_stop later hearlier hfailed, ?_⟩
    -- the path is still ordinary after the presets before it
    have hbefore := writePresets_outcome run.write dir earlier
      (w := w₁.noted (.running (earlier ++ p :: later).length dir))
      fun q hq => hordinary q (List.mem_append_left _ hq)
    rw [hearlier] at hbefore
    cases hbefore with
    | ok hdone =>
        have hpath : w₁.store.Ordinary (p.outputPath dir) := hordinary p (by simp)
        have heffect := populate_effect run.write.populate p.count (hdone.2.1.ordinary _ hpath)
        rw [hfailed] at heffect
        cases heffect with
        | error hchanged => exact hchanged

/-- The smallest standard preset, chosen twice, is written twice, and its file holds one person. -/
theorem runPresets_law_twice :
    ∃ w' : World,
      (runPresets { outputDirectory := some ⟨"/"⟩, only := ["sample1", "sample1"] } :
        StateM World _).run ⟨.bare, []⟩ =
          (.ok (List.replicate 2
            ("sample1", { rows := 1, bytes := (dataset .compact {} 1).length })), w') ∧
      ∃ loc mode, w'.store.node ⟨"/sample1.json"⟩ =
        .ok (loc, .file (dataset .compact {} 1).toByteArray mode) := by
  let run : PresetRun := { outputDirectory := some ⟨"/"⟩, only := ["sample1", "sample1"] }
  let sample : Preset := { name := "sample1", file := ⟨"sample1.json"⟩, count := 1 }
  let w : World := ⟨.bare, []⟩
  have hload : ((presetsOf run.source : StateM World _).run w).1 = .ok .builtin := rfl
  have hselect : PresetSet.builtin.select run.only run.includeDisabled = .ok [sample, sample] := rfl
  have hdir : (run.outputDirectory <|> PresetSet.builtin.outputDirectory).getD
      PresetSet.defaultDirectory = ⟨"/"⟩ := rfl
  have hprepare : (prepareDirectory run.createDirectory ⟨"/"⟩ : StateM World _).run w =
      (.ok (), w) := rfl
  have hoften : ∀ p ∈ [sample, sample], p = sample := by simp
  have hpath : sample.outputPath ⟨"/"⟩ = ⟨"/sample1.json"⟩ := by decide
  have hcheck : Store.check ⟨"/sample1.json"⟩ = .ok () :=
    Store.check_eq_ok (by decide) (by decide) (by decide)
  have hsteps : Path.steps ⟨"/sample1.json"⟩ = ["sample1.json"] := by decide
  have henters : ∀ p, Store.Enters p "sample1.json" [] := fun p => ⟨by decide, by simp, by decide⟩
  have hfree : ∀ p, Store.bare.resolve p ⟨"/sample1.json"⟩ = .ok (.free [] "sample1.json") :=
    fun p => Store.resolve_of_name hcheck hsteps (henters p) rfl
  have hplain : ∀ p ∈ [sample, sample], ∀ target node,
      w.store.resolve .name (p.outputPath ⟨"/"⟩) = .ok target →
      w.store.get? target.location = some node → ¬node.IsSpecial := by
    intro p hp target node htarget hget
    rw [hoften p hp, hpath] at htarget
    obtain rfl := Except.ok.inj (htarget.symm.trans (hfree .name))
    cases hget
  have hlaw := runPresets_law hload hselect hdir hprepare hplain
  -- the destination is free before the first run and a file before the second
  obtain ⟨w₁, hrun₁, hstore₁⟩ := populate_in_place_of_fits (o := run.write.populate)
    (w := w.noted (.running 2 ⟨"/"⟩)) rfl (by decide : 1 ≤ personCount) (hfree .make) (.inl rfl) rfl
    (.of_bound_eq_none rfl _)
  have hagain : w₁.store.resolve .make ⟨"/sample1.json"⟩ =
      .ok (.found ["sample1.json"] (.file (dataset .compact {} 1).toByteArray
        (Store.bare.keptMode ["sample1.json"]))) := by
    rw [hstore₁, Store.resolve_eq_ok_iff, hsteps]
    exact ⟨hcheck, .node (henters .make) rfl (by simp) (by simp)⟩
  have hbound₁ : w₁.store.bound ["sample1.json"] = none := by
    rw [hstore₁]
    rfl
  have hgrant₁ : w₁.store.grant .write ["sample1.json"] = .ok () := by
    rw [hstore₁]
    rfl
  let m : Metrics := { rows := 1, bytes := (dataset .compact {} 1).length }
  obtain ⟨w₂, hrun₂, -⟩ := populate_in_place_of_fits (o := run.write.populate)
    (w := w₁.noted (.preset "sample1" m)) rfl (by decide : 1 ≤ personCount) hagain
    (.inr ⟨_, _, (Store.resolve_eq_ok_iff.1 hagain).2.get?_location⟩) hgrant₁
    (.of_bound_eq_none hbound₁ _)
  have hrun : (runPresets run : StateM World _).run w =
      (.ok (List.replicate 2 ("sample1", m)), w₂.noted (.preset "sample1" m)) := by
    have hfirst : (populate run.write.populate ⟨"/sample1.json"⟩ sample.count :
        StateM World _).run (w.noted (.running [sample, sample].length ⟨"/"⟩)) = (.ok m, w₁) :=
      hrun₁
    have hsecond : (populate run.write.populate ⟨"/sample1.json"⟩ sample.count :
        StateM World _).run (w₁.noted (.preset sample.name m)) = (.ok m, w₂) := hrun₂
    rw [run_runPresets hload hselect hdir hprepare, run_writePresets_cons, hpath, hfirst]
    dsimp only
    rw [run_writePresets_cons, hpath, hsecond]
    rfl
  obtain ⟨-, hholds⟩ := hlaw.1 _ _ hrun
  obtain ⟨loc, -, earlier, q, later, mode, hpresets, hnode, -⟩ := hholds _ List.mem_cons_self
  have hq : q = sample := hoften q (hpresets ▸ List.mem_append_right _ List.mem_cons_self)
  rw [hq, hpath] at hnode
  exact ⟨_, hrun, loc, mode, hnode⟩

end

end Roster
