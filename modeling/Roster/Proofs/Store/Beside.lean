/-
**Files staged beside their destination.**

A staging file is made in the directory of its destination, which is reached from the root: through
the working directory, and on along the path of the destination without its last part.  In a tree
this leads to a directory wherever the path itself leads to a place for a file, and the staging
file can be moved from there to the place.  What is left that can be refused is the path of the
staging file, which is longer than that of the destination and may be too long.

Main definitions:

* `Roster.Store.stagingPath` — the path of a staging file;
* `Roster.Store.WouldStage` — its location.

Main results:

* `Roster.Store.Leads.init` — the steps before the last one lead to a directory;
* `Roster.stagingDirectory_names` — the names of the directory of a destination;
* `Roster.Store.WellFormed.stage_beside` — **a staging file can be made beside a place**, if its
  path is not too long and there is access to its location;
* `Roster.Store.stage_too_far` — otherwise it cannot;
* `Roster.Store.WellFormed.rename_beside` — **it can be moved to the place**.
-/

import Roster.Dataset.Populate
import Roster.Proofs.Path
import Roster.Proofs.Store.Place

set_option relaxedAutoImplicit false
set_option autoImplicit false

namespace Roster

namespace Store

variable {s : Store} {p : Purpose} {links : Nat} {loc l : Location} {step : String}
  {steps rest names : List String} {target : Target} {mode : Nat} {path : Path}

/-! ### Walks to directories -/

namespace Leads

/-- The steps before the last one lead to a directory. -/
theorem init (hs : s.Rooted) (hloc : s.HasDirectory loc) {init : List String}
    (h : Leads s p links loc (init ++ [step]) target) :
    ∃ l mode, Leads s .use links loc init (.found l (.directory mode)) := by
  -- without any step before the last one the walk is still at the directory where it starts
  have hstart : ∀ {links loc}, s.HasDirectory loc →
      ∃ l mode, Leads s .use links loc [] (.found l (.directory mode)) := by
    rintro links loc ⟨mode, hget⟩
    exact ⟨loc, mode, here hget⟩
  generalize hsteps : init ++ [step] = steps at h
  induction h generalizing init with
  | here => simp at hsteps
  | stay hstep _ ih =>
      cases init with
      | nil => exact hstart hloc
      | cons x init =>
          obtain ⟨rfl, hrest⟩ := List.cons.inj hsteps
          obtain ⟨l, mode, h⟩ := ih hloc hrest
          exact ⟨l, mode, stay hstep h⟩
  | @up _ loc _ _ _ ih =>
      cases init with
      | nil => exact hstart hloc
      | cons x init =>
          obtain ⟨rfl, hrest⟩ := List.cons.inj hsteps
          obtain ⟨l, mode, h⟩ := ih (hs.up loc hloc) hrest
          exact ⟨l, mode, up h⟩
  | free | link | node =>
      cases init with
      | nil => exact hstart hloc
      | cons x init => simp at hsteps
  | directory h hget _ ih =>
      cases init with
      | nil => exact hstart hloc
      | cons x init =>
          obtain ⟨rfl, hrest⟩ := List.cons.inj hsteps
          obtain ⟨l, mode, hleads⟩ := ih ⟨_, hget⟩ hrest
          exact ⟨l, mode, directory (h.again (by simp)) hget hleads⟩
  | @follow _ loc _ rest _ path _ h hget _ ih =>
      cases init with
      | nil => exact hstart hloc
      | cons x init =>
          obtain ⟨rfl, rfl⟩ := List.cons.inj hsteps
          obtain ⟨l, mode, hleads⟩ := ih (hs.link hloc path) (List.append_assoc _ _ _)
          exact ⟨l, mode, follow (by simp) (h.again (by simp)) hget hleads⟩

/-- A walk that has come to a directory goes on from there. -/
theorem append (h : Leads s .use links loc steps (.found l (.directory mode)))
    (hrest : ∀ k, Leads s .use k l rest target) :
    Leads s .use links loc (steps ++ rest) target := by
  generalize hfound : Target.found l (.directory mode) = found at h
  induction h with
  | here =>
      obtain ⟨rfl, -⟩ := Target.found.inj hfound
      exact hrest _
  | stay hstep _ ih => exact stay hstep (ih hfound)
  | up _ ih => exact up (ih hfound)
  | free => cases hfound
  | directory h hget _ ih => exact directory (h.again (by simp)) hget (ih hfound)
  | link h => cases h
  | follow _ h hget _ ih =>
      refine follow (by simp) (h.again (by simp)) hget ?_
      have hassoc := ih hfound
      rwa [List.append_assoc] at hassoc
  | node _ _ hdir => exact (hdir mode (Target.found.inj hfound).2.symm).elim

/-- At a directory an empty step and dots make no difference. -/
theorem append_stays (h : Leads s .use links loc steps (.found l (.directory mode)))
    (hrest : ∀ step ∈ rest, step = "" ∨ step = ".") :
    Leads s .use links loc (steps ++ rest) (.found l (.directory mode)) := by
  refine h.append fun k => ?_
  induction rest with
  | nil => exact here h.get?_location
  | cons step rest ih =>
      exact stay (hrest step List.mem_cons_self)
        (ih fun step hstep => hrest step (List.mem_cons_of_mem _ hstep))

/-- Before some dots a walk to a directory has come to a directory. -/
theorem before_dots (hs : s.Rooted) (hloc : s.HasDirectory loc) (j : Nat)
    (h : Leads s .use links loc (steps ++ List.replicate j ".") (.found l (.directory mode))) :
    ∃ l mode, Leads s .use links loc steps (.found l (.directory mode)) := by
  induction j generalizing l mode with
  | zero => exact ⟨l, mode, by simpa using h⟩
  | succ j ih =>
      rw [List.replicate_succ', ← List.append_assoc] at h
      obtain ⟨l', mode', h'⟩ := h.init hs hloc
      exact ih h'

end Leads

/-- Above a directory there is a directory. -/
theorem Rooted.above (hs : s.Rooted) (names : List String) (h : s.HasDirectory (loc ++ names)) :
    s.HasDirectory loc := by
  induction names generalizing loc with
  | nil => simpa using h
  | cons name names ih =>
      rw [← List.singleton_append, ← List.append_assoc] at h
      have hup := hs.up _ (ih h)
      rwa [List.dropLast_concat] at hup

/-- A walk along the names of a directory comes to the directory. -/
theorem Leads.along (hs : s.Rooted) (hnames : ∀ name ∈ names, FileName name)
    (hdir : s.HasDirectory (loc ++ names))
    (h : Leads s .use links (loc ++ names) rest target) :
    Leads s .use links loc (names ++ rest) target := by
  induction names generalizing loc with
  | nil => simpa using h
  | cons name names ih =>
      have hassoc : loc ++ name :: names = loc ++ [name] ++ names := by simp
      rw [hassoc] at hdir h
      obtain ⟨mode, hget⟩ := hs.above names hdir
      have hname := hnames name List.mem_cons_self
      exact directory ⟨hname.isName, by simp, hname.short⟩ hget
        (ih (fun n hn => hnames n (List.mem_cons_of_mem _ hn)) hdir h)

/-- A path of which the names lead to a directory leads there. -/
theorem Leads.steps_of_names
    (h : Leads s .use links loc path.names (.found l (.directory mode))) :
    Leads s .use links loc path.steps (.found l (.directory mode)) := by
  rw [Path.steps]
  split
  · exact h.append_stays (by simp)
  · exact h

end Store

/-! ### The directory of a destination -/

section

variable {path : Path} {init : List String} {name : String}

/-- The directory of a destination that has no slash in it. -/
theorem stagingDirectory_of_notMem (h : '/' ∉ path.text.toList) (hne : path.text.toList ≠ [])
    (hdot : path.text.toList ≠ ['.']) : stagingDirectory path = ⟨"."⟩ := by
  rw [stagingDirectory, Path.parent?_of_notMem h hne hdot]
  rfl

/-- The directory of a destination that is a name after a slash. -/
theorem stagingDirectory_of_slash {before last : List Char}
    (htext : path.text.toList = before ++ '/' :: last) (hlast : '/' ∉ last) (hne : last ≠ [])
    (hdot : last ≠ ['.']) :
    stagingDirectory path = Path.ofTrimmed (Path.trimBack before.reverse) := by
  rw [stagingDirectory, Path.parent?_of_slash htext hlast hne hdot]
  cases Path.trimBack before.reverse with
  | nil => rfl
  | cons c cs => simp [Path.ofTrimmed]

/-- The last part of a destination, which is a name: the text is that name, or it comes after a
slash. -/
theorem last_part (hnames : path.names = init ++ [name]) (hname : Store.IsName name)
    (hends : path.endsWithSlash = false) :
    ('/' ∉ path.text.toList ∧ path.text.toList ≠ [] ∧ path.text.toList ≠ ['.'] ∧ init = []) ∨
      ∃ before last, path.text.toList = before ++ '/' :: last ∧ '/' ∉ last ∧ last ≠ [] ∧
        last ≠ ['.'] ∧ Path.namesOf before = init := by
  have hdot : name.toList ≠ ['.'] := by
    intro h
    exact hname.1 (.inr (String.toList_inj.1 h))
  rcases Path.notMem_or_split path.text.toList with hslash | ⟨before, last, htext, hlast⟩
  · have hne : path.text.toList ≠ [] := by
      intro hnil
      simp [Path.names_eq, hnil] at hnames
    rw [Path.names_eq, Path.namesOf_of_notMem hslash hne] at hnames
    obtain ⟨rfl, rfl⟩ : init = [] ∧ String.ofList path.text.toList = name := by
      have hsame : [] ++ [String.ofList path.text.toList] = init ++ [name] := hnames
      simpa using List.append_inj' hsame rfl
    rw [String.toList_ofList] at hdot
    exact .inl ⟨hslash, hne, hdot, rfl⟩
  · have hne : last ≠ [] := by
      rintro rfl
      simp [Path.endsWithSlash, htext] at hends
    rw [Path.names_eq, htext, Path.namesOf_append_slash, Path.namesOf_of_notMem hlast hne]
      at hnames
    obtain ⟨hinit, hsame⟩ := List.append_inj' hnames rfl
    obtain rfl : String.ofList last = name := by simpa using hsame
    rw [String.toList_ofList] at hdot
    exact .inr ⟨before, last, htext, hlast, hne, hdot, hinit⟩

/-- The directory of a destination is absolute if the destination is. -/
theorem stagingDirectory_isAbsolute (hnames : path.names = init ++ [name])
    (hname : Store.IsName name) (hends : path.endsWithSlash = false) :
    (stagingDirectory path).isAbsolute = path.isAbsolute := by
  rcases last_part hnames hname hends with
    ⟨hslash, hne, hdot, -⟩ | ⟨before, last, htext, hlast, hne, hdot, -⟩
  · rw [stagingDirectory_of_notMem hslash hne hdot]
    have hhead : path.text.toList.head? ≠ some '/' := fun h => hslash (List.mem_of_mem_head? h)
    simp [Path.isAbsolute, hhead]
  · have hhead : path.text.toList.head? = (before ++ ['/']).head? := by
      rw [htext]
      cases before <;> rfl
    rw [stagingDirectory_of_slash htext hlast hne hdot, Path.isAbsolute, Path.isAbsolute, hhead]
    cases htrim : Path.trimBack before.reverse with
    | nil =>
        by_cases hbefore : before = []
        · simp [Path.ofTrimmed, hbefore]
        · have hfirst := Path.getLast?_of_trimBack_eq_nil htrim (by simpa using hbefore)
          rw [List.getLast?_reverse] at hfirst
          simp [Path.ofTrimmed, List.head?_append, hfirst]
    | cons c cs =>
        have hleft : Path.trimBack before.reverse ≠ [] := by simp [htrim]
        have hfirst := Path.getLast?_trimBack hleft
        rw [htrim, List.getLast?_reverse, ← List.head?_reverse] at hfirst
        have hbefore : before ≠ [] := by
          rintro rfl
          simp at hfirst
        obtain ⟨b, bs, rfl⟩ := List.exists_cons_of_ne_nil hbefore
        rw [Path.ofTrimmed, String.toList_ofList, hfirst]
        · rfl
        · exact List.cons_ne_nil c cs

/-- The names of the directory of a destination are those before the last one, but for dots at the
end. -/
theorem stagingDirectory_names (hnames : path.names = init ++ [name])
    (hname : Store.IsName name) (hends : path.endsWithSlash = false) :
    ∃ j k, (stagingDirectory path).names ++ List.replicate j "." =
      init ++ List.replicate k "." := by
  rcases last_part hnames hname hends with
    ⟨hslash, hne, hdot, rfl⟩ | ⟨before, last, htext, hlast, hne, hdot, rfl⟩
  · rw [stagingDirectory_of_notMem hslash hne hdot]
    exact ⟨0, 1, rfl⟩
  · rw [stagingDirectory_of_slash htext hlast hne hdot]
    obtain ⟨k, hk⟩ := Path.namesOf_trimBack before.reverse
    rw [List.reverse_reverse] at hk
    refine ⟨k, 0, ?_⟩
    rw [hk, List.replicate_zero, List.append_nil]
    cases Path.trimBack before.reverse with
    | nil => rfl
    | cons c cs => simp [Path.ofTrimmed, Path.names_eq]

/-- The characters of the directory of a destination are those of the destination, dots and
slashes. -/
theorem mem_stagingDirectory (hnames : path.names = init ++ [name])
    (hname : Store.IsName name) (hends : path.endsWithSlash = false) {c : Char}
    (hc : c ∈ (stagingDirectory path).text.toList) : c ∈ path.text.toList ∨ c = '.' ∨ c = '/' := by
  rcases last_part hnames hname hends with
    ⟨hslash, hne, hdot, -⟩ | ⟨before, last, htext, hlast, hne, hdot, -⟩
  · rw [stagingDirectory_of_notMem hslash hne hdot] at hc
    exact .inr (.inl (by simpa using hc))
  · rw [stagingDirectory_of_slash htext hlast hne hdot] at hc
    have hsuffix := Path.trimBack_suffix before.reverse
    cases htrim : Path.trimBack before.reverse with
    | nil =>
        rw [htrim] at hc
        exact .inr (.inr (by simpa [Path.ofTrimmed] using hc))
    | cons d ds =>
        rw [htrim] at hc hsuffix
        have hmem : c ∈ d :: ds := by simpa [Path.ofTrimmed, or_comm] using hc
        have hbefore : c ∈ before := by simpa using hsuffix.subset hmem
        rw [htext]
        exact .inl (List.mem_append_left _ hbefore)

end

namespace Store

variable {s : Store} {path : Path} {target parent : Target} {init : List String} {name : String}
  {loc staged : Location} {node : Node} {content : ByteArray} {mode : Nat}

/-! ### Staging beside a place -/

/-- The path, from the root on, of the directory in which a destination is staged. -/
def stagingParent (s : Store) (path : Path) : Path :=
  Path.join ⟨locationText s.here⟩ (stagingDirectory path)

/-- The path of a staging file for a destination. -/
def stagingPath (s : Store) (path : Path) : Path := (s.stagingParent path).join ⟨stagingName 0⟩

theorem isAbsolute_locationText (loc : Location) :
    Path.isAbsolute ⟨locationText loc⟩ = true := by
  rw [Path.isAbsolute, locationText, String.toList_append]
  rfl

theorem isAbsolute_stagingParent (s : Store) (path : Path) :
    (s.stagingParent path).isAbsolute = true :=
  Path.isAbsolute_join (isAbsolute_locationText s.here)

/-- There is no zero byte in the path of the directory if there is none in that of the
destination. -/
theorem WellFormed.zero_notMem_stagingParent (hs : s.WellFormed) (hzero : path.hasZero = false)
    (hnames : path.names = init ++ [name]) (hname : IsName name)
    (hends : path.endsWithSlash = false) : '\x00' ∉ (s.stagingParent path).text.toList := by
  have hpath : '\x00' ∉ path.text.toList := by simpa [Path.hasZero] using hzero
  intro hmem
  rcases Path.mem_join hmem with hhere | hslash | hdir
  · rcases Path.mem_locationText hhere with hslash | ⟨n, hn, hc⟩
    · exact absurd hslash (by decide)
    · exact (hs.named n hn).zero hc
  · exact absurd hslash (by decide)
  · rcases mem_stagingDirectory hnames hname hends hdir with hc | hdot | hslash
    · exact hpath hc
    · exact absurd hdot (by decide)
    · exact absurd hslash (by decide)

/-- In a tree the directory of a destination is one, looked for from the root on. -/
theorem WellFormed.leads_stagingParent (hs : s.WellFormed)
    (hleads : Leads s .name maxLinks (s.start path) (init ++ [name]) target)
    (hnames : path.names = init ++ [name]) (hname : IsName name)
    (hends : path.endsWithSlash = false) :
    ∃ l mode, Leads s .use maxLinks [] (s.stagingParent path).steps
      (.found l (.directory mode)) := by
  have hstart := hs.start path
  have habsolute := stagingDirectory_isAbsolute hnames hname hends
  -- the steps before the last one, without or with some dots, lead to a directory
  obtain ⟨l, mode, hinit⟩ := hleads.init hs.toRooted hstart
  obtain ⟨j, k, hdots⟩ := stagingDirectory_names hnames hname hends
  have hstays : ∀ step ∈ List.replicate k ".", step = "" ∨ step = "." := by simp
  have hmore := hinit.append_stays hstays
  rw [← hdots] at hmore
  obtain ⟨l', mode', hdir⟩ := hmore.before_dots hs.toRooted hstart j
  refine ⟨l', mode', Leads.steps_of_names ?_⟩
  cases hpath : path.isAbsolute with
  | true =>
      rw [hpath] at habsolute
      rw [Store.start, if_pos hpath] at hdir
      rw [stagingParent, Path.join_of_isAbsolute habsolute]
      exact hdir
  | false =>
      rw [hpath] at habsolute
      have hhere : Path.names ⟨locationText s.here⟩ = s.here :=
        Path.names_locationText fun n hn =>
          ⟨fun hempty => (hs.named n hn).isName.1 (.inl hempty), (hs.named n hn).slash⟩
      rw [Store.start, if_neg (by simp [hpath])] at hdir
      rw [stagingParent, Path.names_join habsolute, hhere]
      exact hdir.along hs.toRooted hs.named hs.here

/-- The staging file for a destination would be made at a location, if there is access. -/
def WouldStage (s : Store) (path : Path) (staged : Location) : Prop :=
  ∃ dir mode, s.stagingNode (s.stagingParent path) = .ok (dir, .directory mode) ∧
    staged = dir ++ [s.freshName dir]

/-- It would be made at a free location. -/
theorem WouldStage.free {staged : Location} (h : s.WouldStage path staged) : s.get? staged = none := by
  obtain ⟨dir, mode, -, rfl⟩ := h
  exact get?_freshName s dir

/-- A staging file is made in a directory under a name that is free there. -/
theorem stage_of_stagingNode {dir full : Path} (hfull : Path.join ⟨locationText s.here⟩ dir = full)
    (h : s.stagingNode full = .ok (loc, .directory mode))
    (hgrant : s.grant .write (loc ++ [s.freshName loc]) = .ok ()) :
    s.stage dir = .ok (loc ++ [s.freshName loc], full.join ⟨s.freshName loc⟩,
      s.put (loc ++ [s.freshName loc]) (.file .empty (fileMode s.umask))) := by
  unfold stage
  extract_lets joined
  have hjoined : joined = full := hfull
  rw [hjoined, h]
  dsimp only
  rw [hgrant]

/-- A staging file is made nowhere but in a directory, under a name that is free there. -/
theorem stagingNode_of_stage {dir full staging : Path} {s' : Store}
    (hfull : Path.join ⟨locationText s.here⟩ dir = full)
    (h : s.stage dir = .ok (loc, staging, s')) :
    ∃ l mode, s.stagingNode full = .ok (l, .directory mode) ∧ loc = l ++ [s.freshName l] := by
  unfold stage at h
  extract_lets joined at h
  have hjoined : joined = full := hfull
  rw [hjoined] at h
  cases hnode : s.stagingNode full with
  | error e =>
      rw [hnode] at h
      cases h
  | ok found =>
      obtain ⟨l, node⟩ := found
      rw [hnode] at h
      cases node with
      | directory mode =>
          dsimp only at h
          split at h
          · cases h
          · exact ⟨l, mode, rfl, (Prod.mk.inj (Except.ok.inj h)).1.symm⟩
      | _ => cases h

/-- **A staging file can be made beside a place**, if its path is not too long and there is access
to its location. -/
theorem WellFormed.stage_beside (hs : s.WellFormed) (h : s.resolve .name path = .ok target)
    (hplace : s.IsPlace target.location)
    (hfits : (s.stagingPath path).text.utf8ByteSize ≤ maxPath)
    (hgrant : ∀ staged, s.WouldStage path staged → s.grant .write staged = .ok ()) :
    ∃ staged staging, s.stage (stagingDirectory path) =
      .ok (staged, staging, s.put staged (.file .empty (fileMode s.umask))) := by
  rw [resolve_eq_ok_iff] at h
  obtain ⟨hcheck, hleads⟩ := h
  obtain ⟨hends, init, name, hnames, hname⟩ := hs.ends_with_name (hs.start path) hleads hplace
  rw [Path.steps_of_not_endsWithSlash hends, hnames] at hleads
  obtain ⟨l, mode, hdir⟩ := hs.leads_stagingParent hleads hnames hname hends
  have hzero := hs.zero_notMem_stagingParent (check_eq_ok_iff.1 hcheck).1 hnames hname hends
  have hparent : check (s.stagingParent path) = .ok () := by
    refine check_eq_ok_iff.2 ⟨by simpa [Path.hasZero] using hzero, ?_, ?_⟩
    · intro hempty
      have habsolute := s.isAbsolute_stagingParent path
      simp [Path.isAbsolute, hempty] at habsolute
    · have hlonger : (s.stagingParent path).text.utf8ByteSize ≤
          (s.stagingPath path).text.utf8ByteSize :=
        Nat.le_trans (Nat.le_add_right _ _) (Path.utf8ByteSize_le_join (by decide))
      exact Nat.le_trans hlonger hfits
  have hstaging : check (s.stagingPath path) = .ok () := by
    refine check_eq_ok_iff.2 ⟨?_, ?_, hfits⟩
    · suffices '\x00' ∉ (s.stagingPath path).text.toList by simpa [Path.hasZero] using this
      intro hmem
      rcases Path.mem_join hmem with hmem | hslash | hmem
      · exact hzero hmem
      · exact absurd hslash (by decide)
      · exact absurd hmem (by decide)
    · intro hempty
      have habsolute : (s.stagingPath path).isAbsolute = true :=
        Path.isAbsolute_join (s.isAbsolute_stagingParent path)
      simp [Path.isAbsolute, hempty] at habsolute
  have hnode : s.node (s.stagingParent path) = .ok (l, .directory mode) := by
    rw [node_eq_ok_iff, resolve_eq_ok_iff, Store.start, if_pos (s.isAbsolute_stagingParent path)]
    exact ⟨hparent, hdir⟩
  have hstagingNode : s.stagingNode (s.stagingParent path) = .ok (l, .directory mode) := by
    rw [stagingNode, ← stagingPath, hstaging, hnode]
    rfl
  have hgranted := hgrant _ ⟨l, mode, hstagingNode, rfl⟩
  have hfull : Path.join ⟨locationText s.here⟩ (stagingDirectory path) = s.stagingParent path := rfl
  exact ⟨_, _, stage_of_stagingNode hfull hstagingNode hgranted⟩

/-- No staging file can be made if its path is too long. -/
theorem stage_too_far (h : maxPath < (s.stagingPath path).text.utf8ByteSize) :
    ∃ e, s.stage (stagingDirectory path) = .error e := by
  have hno : check (s.stagingPath path) ≠ .ok () := by
    intro hcheck
    exact Nat.not_le.2 h (check_eq_ok_iff.1 hcheck).2.2
  cases hcheck : check (s.stagingPath path) with
  | ok u => exact (hno hcheck).elim
  | error e =>
      have hnode : s.stagingNode (s.stagingParent path) = .error e := by
        rw [stagingNode, ← stagingPath, hcheck]
        rfl
      unfold stage
      extract_lets joined
      have hjoined : joined = s.stagingParent path := rfl
      rw [hjoined, hnode]
      exact ⟨_, rfl⟩

/-! ### Moving to a place -/

/-- A file can be moved to where a path names, if the path ends with a name in a directory, no
directory is there and there is access. -/
theorem rename_ok (hcheck : check path = .ok ()) (hnames : path.names = init ++ [name])
    (hname : IsName name) (hends : path.endsWithSlash = false)
    (hparent : Leads s .use maxLinks (s.start path) (init ++ [""]) parent)
    (htarget : s.resolveName path = .ok target) (hfile : ∀ l m, target ≠ .found l (.directory m))
    (hgrant : (s.erase loc).grant .replace target.location = .ok ())
    (hnode : s.get? loc = some node) :
    s.rename loc path = .ok ((s.erase loc).put target.location node) := by
  have hlast : ¬(name = "." ∨ name = "..") := fun h => h.elim (hname.1 ∘ .inr) hname.2
  simp only [rename, (check_eq_ok_iff.1 hcheck).1, hcheck, hnames, List.getLast?_concat,
    List.dropLast_concat, hparent.walk_eq, htarget, hends, hgrant, hnode, hlast, bind, Except.bind,
    Bool.false_eq_true, if_false]
  cases target with
  | free parent name => rfl
  | found l node =>
      cases node with
      | directory m => exact (hfile l m rfl).elim
      | _ => rfl

/-- **A staging file can be moved to a place**, if there is access, and nothing is left of it where it
was made. -/
theorem WellFormed.rename_beside (hs : s.WellFormed) (h : s.resolve .name path = .ok target)
    (hplace : s.IsPlace target.location) (hgrant : s.grant .replace target.location = .ok ())
    (hfree : s.get? staged = none) (content : ByteArray) (mode : Nat) :
    (s.put staged (.file content mode)).rename staged path =
      .ok (s.put target.location (.file content mode)) := by
  rw [resolve_eq_ok_iff] at h
  obtain ⟨hcheck, hleads⟩ := h
  obtain ⟨hends, init, name, hnames, hname⟩ := hs.ends_with_name (hs.start path) hleads hplace
  rw [Path.steps_of_not_endsWithSlash hends, hnames] at hleads
  obtain ⟨l, m, hinit⟩ := hleads.init hs.toRooted (hs.start path)
  have hput : (s.put staged (.file content mode)).get? staged = some (.file content mode) := by simp
  have hparent : Leads (s.put staged (.file content mode)) .use maxLinks (s.start path)
      (init ++ [""]) (.found l (.directory m)) := by
    refine (hinit.append_stays (by simp)).put (.inl hfree) ?_ content mode
    rintro rfl
    exact Option.some_ne_none _ (hinit.get?_location.symm.trans hfree)
  -- the destination may be where the file was staged; then the path names the file itself
  obtain ⟨target', htarget, hlocation, hfile⟩ : ∃ target',
      Leads (s.put staged (.file content mode)) .name maxLinks (s.start path) (init ++ [name])
          target' ∧
        target'.location = target.location ∧ ∀ l m, target' ≠ .found l (.directory m) := by
    by_cases hsame : target.location = staged
    · have huse := hleads.use_put hplace content mode
      rw [hsame] at huse
      obtain ⟨named, hnamed⟩ := huse.name_of_use
      obtain rfl := Leads.replaced (.inl rfl) hput (fun l hl => .inl (get?_put_of_ne hl _))
        hleads hsame hnamed
      exact ⟨_, hnamed, hsame.symm, by simp⟩
    · refine ⟨target, hleads.put (.inl hfree) hsame content mode, rfl, ?_⟩
      rintro l m rfl
      exact hplace.ne_directory m hleads.get?_location
  have hname' : (s.put staged (.file content mode)).resolveName path = .ok target' := by
    rw [resolveName_eq_ok_iff, hnames]
    exact ⟨hcheck, htarget⟩
  have hgrant' : ((s.put staged (.file content mode)).erase staged).grant .replace
      target'.location = .ok () := by
    rw [erase_put hfree, hlocation, hgrant]
  rw [rename_ok hcheck hnames hname hends hparent hname' hfile hgrant' hput, erase_put hfree,
    hlocation]

end Store

end Roster
