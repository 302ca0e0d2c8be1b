/-
**Places for files.**

A file may be written where there is a file already or nothing.  Such a place is never on the way
to another one: a walk goes on through directories and links only, so putting a file at a place
leaves all walks as they were, except those that end there, and these find the new file.

A store is taken as it comes, but a path that ends with a slash or with dots leads to a directory
only if directories lie in directories.  That is what makes a store a tree
(`Roster.Store.WellFormed`).

Main definitions:

* `Roster.Store.IsPlace` — a location where a file may be put;
* `Roster.Store.keptMode` — the permission bits of a file that is written there;
* `Roster.Store.WellFormed` — the stores that are trees.

Main results:

* `Roster.Store.Leads.put`, `Roster.Store.Leads.of_put` — **a file that is put at a place changes
  no walk that ends elsewhere**;
* `Roster.Store.Leads.use_put` — a walk that ends there finds the file;
* `Roster.Store.Leads.before_put` — in a tree such a walk was there before;
* `Roster.Store.create_eq` — a file is made wherever a path leads to a place, if there is access.
-/

import Roster.Proofs.Store.Walk

set_option relaxedAutoImplicit false
set_option autoImplicit false

namespace Roster

namespace Store

variable {s : Store} {p : Purpose} {links : Nat} {loc dest : Location} {name : String}
  {steps rest : List String} {target : Target} {content : ByteArray} {mode : Nat}

/-! ### Targets -/

/-- The node that a walk has found, if it has found one. -/
def Target.node? : Target → Option Node
  | .found _ node => some node
  | .free _ _ => none

/-- A walk reports what is where it ends. -/
theorem Leads.get?_location (h : Leads s p links loc steps target) :
    s.get? target.location = target.node? := by
  induction h with
  | here hget => exact hget
  | stay _ _ ih | up _ ih | directory _ _ _ ih | follow _ _ _ _ ih => exact ih
  | free _ hget | link _ _ hget | node _ hget => exact hget

/-- A location where a file may be put: there is a file or nothing. -/
def IsPlace (s : Store) (loc : Location) : Prop :=
  s.get? loc = none ∨ ∃ content mode, s.get? loc = some (.file content mode)

/-- At a place there is no directory. -/
theorem IsPlace.ne_directory (h : s.IsPlace loc) (mode : Nat) :
    s.get? loc ≠ some (.directory mode) := by
  rcases h with h | ⟨content, m, h⟩ <;> simp [h]

/-- At a place there is no link. -/
theorem IsPlace.ne_link (h : s.IsPlace loc) (path : Path) : s.get? loc ≠ some (.link path) := by
  rcases h with h | ⟨content, m, h⟩ <;> simp [h]

/-- A place stays one when a file is put at it or elsewhere. -/
theorem IsPlace.put (h : s.IsPlace loc) (dest : Location) (content : ByteArray) (mode : Nat) :
    (s.put dest (.file content mode)).IsPlace loc := by
  by_cases hloc : dest = loc
  · exact .inr ⟨content, mode, by simp [hloc]⟩
  · simpa [IsPlace, hloc] using h

/-- The permission bits of a file that is opened for writing: those that it has, or those of a
new file. -/
def keptMode (s : Store) (loc : Location) : Nat :=
  match s.get? loc with
  | some (.file _ mode) => mode
  | _ => fileMode s.umask

/-! ### Putting a file at a place -/

namespace Leads

/-- After a file was put somewhere, a walk that ends elsewhere is one that there was before. -/
theorem of_put (h : Leads (s.put dest (.file content mode)) p links loc steps target)
    (hne : target.location ≠ dest) : Leads s p links loc steps target := by
  -- what is not at the location has not changed, and no walk goes on from a file
  have hold : ∀ {l}, l ≠ dest → s.get? l = (s.put dest (.file content mode)).get? l :=
    fun hl => (get?_put_of_ne hl _).symm
  induction h with
  | here hget => exact here ((hold hne).trans hget)
  | stay hstep _ ih => exact stay hstep (ih hne)
  | up _ ih => exact up (ih hne)
  | free h hget => exact free h ((hold hne).trans hget)
  | directory h hget _ ih =>
      exact directory h ((hold (ne_of_get?_put hget (by simp))).trans hget) (ih hne)
  | link hp h hget => exact link hp h ((hold hne).trans hget)
  | follow hlast h hget _ ih =>
      exact follow hlast h ((hold (ne_of_get?_put hget (by simp))).trans hget) (ih hne)
  | node h hget hdir hlink => exact node h ((hold hne).trans hget) hdir hlink

/-- **A file that is put at a place changes no walk that ends elsewhere.** -/
theorem put (hplace : s.IsPlace dest) (h : Leads s p links loc steps target)
    (hne : target.location ≠ dest) (content : ByteArray) (mode : Nat) :
    Leads (s.put dest (.file content mode)) p links loc steps target := by
  have hkept : ∀ {l}, l ≠ dest → (s.put dest (.file content mode)).get? l = s.get? l :=
    fun hl => get?_put_of_ne hl _
  induction h with
  | here hget => exact here ((hkept hne).trans hget)
  | stay hstep _ ih => exact stay hstep (ih hne)
  | up _ ih => exact up (ih hne)
  | free h hget => exact free h ((hkept hne).trans hget)
  | @directory _ loc name _ _ mode' h hget _ ih =>
      have hnext : loc ++ [name] ≠ dest := by
        rintro rfl
        exact hplace.ne_directory mode' hget
      exact directory h ((hkept hnext).trans hget) (ih hne)
  | link hp h hget => exact link hp h ((hkept hne).trans hget)
  | @follow _ loc name _ _ path hlast h hget _ ih =>
      have hnext : loc ++ [name] ≠ dest := by
        rintro rfl
        exact hplace.ne_link path hget
      exact follow hlast h ((hkept hnext).trans hget) (ih hne)
  | node h hget hdir hlink => exact node h ((hkept hne).trans hget) hdir hlink

/-- After a file was put where a walk ends, the same walk finds it. -/
theorem use_put (h : Leads s p links loc steps target) (hplace : s.IsPlace target.location)
    (content : ByteArray) (mode : Nat) :
    Leads (s.put target.location (.file content mode)) .use links loc steps
      (.found target.location (.file content mode)) := by
  induction h with
  | here hget => exact here (by simp [Target.location])
  | stay hstep _ ih => exact stay hstep (ih hplace)
  | up _ ih => exact up (ih hplace)
  | free h hget | node h hget =>
      exact node (h.again (by simp)) (by simp [Target.location]) (by simp) (by simp)
  | @directory _ loc name _ target' mode' h hget _ ih =>
      have hnext : target'.location ≠ loc ++ [name] := by
        intro heq
        exact hplace.ne_directory mode' (heq ▸ hget)
      exact directory (h.again (by simp)) (by simpa [hnext] using hget) (ih hplace)
  | link hp h hget => exact (hplace.ne_link _ hget).elim
  | @follow _ loc name _ target' path hlast h hget _ ih =>
      have hnext : target'.location ≠ loc ++ [name] := by
        intro heq
        exact hplace.ne_link path (heq ▸ hget)
      exact follow (by simp) (h.again (by simp)) (by simpa [hnext] using hget) (ih hplace)

/-- A walk that ended at a place while there was a file elsewhere, or at this very place, finds the
file that is put at the place instead. -/
theorem use_moved {staged : Location} {content₀ : ByteArray} {mode₀ : Nat}
    (h : Leads (s.put staged (.file content₀ mode₀)) p links loc steps target)
    (hplace : s.IsPlace target.location) (content : ByteArray) (mode : Nat) :
    Leads (s.put target.location (.file content mode)) .use links loc steps
      (.found target.location (.file content mode)) := by
  by_cases hsame : target.location = staged
  · have hput := h.use_put (hplace.put staged content₀ mode₀) content mode
    rw [hsame, put_put] at hput
    rw [hsame]
    exact hput
  · exact (h.of_put hsame).use_put hplace content mode

/-! ### Names and what they lead to -/

/-- What a path leads to it names, unless it names a link. -/
theorem name_or_link (h : Leads s .use links loc steps target) :
    Leads s .name links loc steps target ∨
      ∃ l path, Leads s .name links loc steps (.found l (.link path)) := by
  induction h with
  | here hget => exact .inl (here hget)
  | stay hstep _ ih =>
      rcases ih with h | ⟨l, path, h⟩
      · exact .inl (stay hstep h)
      · exact .inr ⟨l, path, stay hstep h⟩
  | up _ ih =>
      rcases ih with h | ⟨l, path, h⟩
      · exact .inl (up h)
      · exact .inr ⟨l, path, up h⟩
  | free h hget => exact .inl (free (h.again (by simp)) hget)
  | directory h hget _ ih =>
      rcases ih with h' | ⟨l, path, h'⟩
      · exact .inl (directory (h.again (by simp)) hget h')
      · exact .inr ⟨l, path, directory (h.again (by simp)) hget h'⟩
  | link h => cases h
  | @follow links loc name rest _ path _ h hget _ ih =>
      -- at the end of the path the link itself is what is named
      by_cases hrest : rest = []
      · subst hrest
        exact .inr ⟨_, path, link rfl (h.again (by simp)) hget⟩
      · rcases ih with h' | ⟨l, path', h'⟩
        · exact .inl (follow (by simp [hrest]) (h.again (by simp)) hget h')
        · exact .inr ⟨l, path', follow (by simp [hrest]) (h.again (by simp)) hget h'⟩
  | node h hget hdir hlink => exact .inl (node (h.again (by simp)) hget hdir hlink)

/-- At a place that a path names a file can be made, if the path has no slash at its end. -/
theorem make_of_name (h : Leads s .name links loc steps target)
    (hplace : s.IsPlace target.location) (hlast : steps.getLast? ≠ some "") :
    Leads s .make links loc steps target := by
  have henters : ∀ {name rest}, Enters .name name rest → rest ≠ [""] → Enters .make name rest :=
    fun h hrest => h.again fun hslash => hrest hslash.2
  have htail : ∀ {step : String} {rest : List String}, (step :: rest).getLast? ≠ some "" →
      rest.getLast? ≠ some "" := by
    intro step rest hlast hrest
    cases rest with
    | nil => simp at hrest
    | cons x xs => exact hlast (by rwa [List.getLast?_cons_cons])
  have hslash : ∀ {step : String} {rest : List String}, (step :: rest).getLast? ≠ some "" →
      rest ≠ [""] := by
    rintro step rest hlast rfl
    exact hlast rfl
  induction h with
  | here hget => exact here hget
  | stay hstep _ ih => exact stay hstep (ih hplace (htail hlast))
  | up _ ih => exact up (ih hplace (htail hlast))
  | free h hget => exact free (henters h (by simp)) hget
  | directory h hget _ ih =>
      exact directory (henters h (hslash hlast)) hget (ih hplace (htail hlast))
  | link _ h hget => exact (hplace.ne_link _ hget).elim
  | @follow _ _ _ rest _ path hname h hget _ ih =>
      have hrest : rest ≠ [] := fun hrest => hname ⟨hrest, rfl⟩
      refine follow (by simp) (henters h (hslash hlast)) hget (ih hplace ?_)
      have hstay : (path.steps ++ rest).getLast? = rest.getLast? := by
        rw [List.getLast?_append, List.getLast?_eq_some_getLast hrest, Option.some_or]
      rw [hstay]
      exact htail hlast
  | node h hget hdir hlink => exact node (henters h (by simp)) hget hdir hlink

end Leads

/-! ### Trees -/

/-- There is a directory at a location. -/
def HasDirectory (s : Store) (loc : Location) : Prop := ∃ mode, s.get? loc = some (.directory mode)

/-- A name that an entry of a directory can have. -/
structure FileName (name : String) : Prop where
  /-- It is a name. -/
  isName : IsName name
  /-- There is no slash in it. -/
  slash : '/' ∉ name.toList
  /-- There is no zero byte in it. -/
  zero : '\x00' ∉ name.toList
  /-- It is not too long. -/
  short : ¬maxName < name.utf8ByteSize

/-- Directories lie in directories, up to the root. -/
structure Rooted (s : Store) : Prop where
  /-- The root is a directory. -/
  root : s.HasDirectory []
  /-- Where a directory lies there is a directory. -/
  up : ∀ loc, s.HasDirectory loc → s.HasDirectory loc.dropLast

/-- **The stores that are trees**: directories lie in directories, and the working directory is
one of them. -/
structure WellFormed (s : Store) : Prop extends Rooted s where
  /-- The working directory is there. -/
  here : s.HasDirectory s.here
  /-- The names of the working directory can be written in a path. -/
  named : ∀ name ∈ s.here, FileName name

/-- A file makes no difference to which locations are directories, put where nothing was. -/
theorem hasDirectory_put (h : s.get? dest = none) (content : ByteArray) (mode : Nat) :
    (s.put dest (.file content mode)).HasDirectory loc ↔ s.HasDirectory loc := by
  by_cases hloc : dest = loc
  · subst hloc
    simp [HasDirectory, h]
  · simp [HasDirectory, hloc]

/-- A new file leaves directories in directories. -/
theorem Rooted.put (h : s.Rooted) (hfree : s.get? dest = none) (content : ByteArray) (mode : Nat) :
    (s.put dest (.file content mode)).Rooted where
  root := (hasDirectory_put hfree content mode).2 h.root
  up := by
    intro loc hloc
    rw [hasDirectory_put hfree] at hloc ⊢
    exact h.up loc hloc

/-- The walk of a link starts at a directory, as the walk that has come to it is at one. -/
theorem Rooted.link (h : s.Rooted) (hloc : s.HasDirectory loc) (path : Path) :
    s.HasDirectory (if path.isAbsolute then [] else loc) := by
  split
  · exact h.root
  · exact hloc

/-- A path starts at a directory. -/
theorem WellFormed.start (h : s.WellFormed) (path : Path) : s.HasDirectory (s.start path) :=
  h.link h.here path

/-- A walk whose last step is no name ends at a directory. -/
theorem Leads.directory_of_not_isName (hs : s.Rooted) {step : String} (hstep : ¬IsName step)
    {init : List String} (hloc : s.HasDirectory loc)
    (h : Leads s p links loc (init ++ [step]) target) :
    ∃ l m, target = .found l (.directory m) := by
  -- the last step stays the last one, also where the steps of a link come before it
  generalize hsteps : init ++ [step] = steps at h
  induction h generalizing init with
  | here => simp at hsteps
  | @stay _ _ _ rest _ _ h ih =>
      cases init with
      | nil =>
          obtain ⟨-, rfl⟩ := List.cons.inj hsteps
          obtain ⟨m, hm⟩ := hloc
          cases h with
          | here hget => exact ⟨_, m, by rw [Option.some.inj (hget.symm.trans hm)]⟩
      | cons x init => exact ih hloc (List.cons.inj hsteps).2
  | @up _ loc rest _ h ih =>
      have hdrop := hs.up loc hloc
      cases init with
      | nil =>
          obtain ⟨-, rfl⟩ := List.cons.inj hsteps
          obtain ⟨m, hm⟩ := hdrop
          cases h with
          | here hget => exact ⟨_, m, by rw [Option.some.inj (hget.symm.trans hm)]⟩
      | cons x init => exact ih hdrop (List.cons.inj hsteps).2
  | free h | link _ h | node h =>
      cases init with
      | nil =>
          obtain ⟨rfl, -⟩ := List.cons.inj hsteps
          exact (hstep h.isName).elim
      | cons x init => simp at hsteps
  | directory h hget _ ih =>
      cases init with
      | nil =>
          obtain ⟨rfl, -⟩ := List.cons.inj hsteps
          exact (hstep h.isName).elim
      | cons x init => exact ih ⟨_, hget⟩ (List.cons.inj hsteps).2
  | @follow _ _ _ rest _ path _ h _ _ ih =>
      cases init with
      | nil =>
          obtain ⟨rfl, -⟩ := List.cons.inj hsteps
          exact (hstep h.isName).elim
      | cons x init =>
          obtain ⟨-, rfl⟩ := List.cons.inj hsteps
          exact ih (hs.link hloc path) (List.append_assoc _ _ _)

/-- In a tree every walk after a file was put at a place is one from before, up to what is at the
place. -/
theorem Leads.before_put (hs : s.Rooted) (hloc : s.HasDirectory loc) (hplace : s.IsPlace dest)
    (h : Leads (s.put dest (.file content mode)) p links loc steps target) :
    ∃ target', Leads s p links loc steps target' ∧ target'.location = target.location := by
  have hold : ∀ {l}, l ≠ dest → s.get? l = (s.put dest (.file content mode)).get? l :=
    fun hl => (get?_put_of_ne hl _).symm
  induction h with
  | @here _ loc node hget =>
      -- a walk without any more steps is at a directory, and so elsewhere
      have hother : loc ≠ dest := by
        rintro rfl
        obtain ⟨m, hm⟩ := hloc
        exact hplace.ne_directory m hm
      exact ⟨_, here ((hold hother).trans hget), rfl⟩
  | stay hstep _ ih =>
      obtain ⟨t, ht, hsame⟩ := ih hloc
      exact ⟨t, stay hstep ht, hsame⟩
  | @up _ loc _ _ _ ih =>
      obtain ⟨t, ht, hsame⟩ := ih (hs.up loc hloc)
      exact ⟨t, up ht, hsame⟩
  | @free _ loc name h hget =>
      have hother : loc ++ [name] ≠ dest := by
        rintro rfl
        simp at hget
      exact ⟨_, free h ((hold hother).trans hget), rfl⟩
  | directory h hget _ ih =>
      have hdir := (hold (ne_of_get?_put hget (by simp))).trans hget
      obtain ⟨t, ht, hsame⟩ := ih ⟨_, hdir⟩
      exact ⟨t, directory h hdir ht, hsame⟩
  | link hp h hget =>
      exact ⟨_, link hp h ((hold (ne_of_get?_put hget (by simp))).trans hget), rfl⟩
  | @follow _ _ _ _ _ path hlast h hget _ ih =>
      obtain ⟨t, ht, hsame⟩ := ih (hs.link hloc path)
      exact ⟨t, follow hlast h ((hold (ne_of_get?_put hget (by simp))).trans hget) ht, hsame⟩
  | @node _ loc name node h hget hdir hlink =>
      by_cases hsame : loc ++ [name] = dest
      · subst hsame
        rcases hplace with hnone | ⟨c, m, hfile⟩
        · exact ⟨_, free h hnone, rfl⟩
        · exact ⟨_, .node h hfile (by simp) (by simp), rfl⟩
      · exact ⟨_, .node h ((hold hsame).trans hget) hdir hlink, rfl⟩

/-- A path to a place ends with a name. -/
theorem Rooted.ends_with_name (hs : s.Rooted) {path : Path} (hstart : s.HasDirectory (s.start path))
    (hleads : Leads s p links (s.start path) path.steps target)
    (hplace : s.IsPlace target.location) :
    path.endsWithSlash = false ∧ ∃ init name, path.names = init ++ [name] ∧ IsName name := by
  have hdir : ¬∃ l m, target = .found l (.directory m) := by
    rintro ⟨l, m, rfl⟩
    exact hplace.ne_directory m hleads.get?_location
  by_cases hslash : path.endsWithSlash = true
  · have hsteps : path.steps = path.names ++ [""] := by simp [Path.steps, hslash]
    rw [hsteps] at hleads
    exact (hdir (hleads.directory_of_not_isName hs (by simp [IsName]) hstart)).elim
  · have hends : path.endsWithSlash = false := by simpa using hslash
    refine ⟨hends, ?_⟩
    rw [Path.steps_of_not_endsWithSlash hends] at hleads
    rcases List.eq_nil_or_concat path.names with hnil | ⟨init, name, hnames⟩
    · obtain ⟨m, hm⟩ := hstart
      rw [hnil] at hleads
      cases hleads with
      | here hget => exact (hdir ⟨_, m, by rw [Option.some.inj (hget.symm.trans hm)]⟩).elim
    · rw [List.concat_eq_append] at hnames
      refine ⟨init, name, hnames, Classical.byContradiction fun hname => ?_⟩
      rw [hnames] at hleads
      exact hdir (hleads.directory_of_not_isName hs hname hstart)

/-- A root with nothing in it, as the working directory, is a tree. -/
theorem wellFormed_of_root (hentries : s.entries = [([], .directory mode)]) (hhere : s.here = []) :
    s.WellFormed := by
  have hroot : s.HasDirectory [] := ⟨mode, by simp [get?, hentries, find?]⟩
  refine { root := hroot, up := ?_, here := hhere ▸ hroot, named := by simp [hhere] }
  rintro loc ⟨m, hm⟩
  by_cases hloc : loc = []
  · subst hloc
    exact hroot
  · simp [get?, hentries, find?, Ne.symm hloc] at hm

/-! ### Paths to places -/

variable {path : Path}

/-- A plain name that is free leads to its place in the directory where the path starts. -/
theorem resolve_of_name (hcheck : check path = .ok ()) (hsteps : path.steps = [name])
    (henters : Enters p name []) (hget : s.get? (s.start path ++ [name]) = none) :
    s.resolve p path = .ok (.free (s.start path) name) := by
  rw [resolve_eq_ok_iff, hsteps]
  exact ⟨hcheck, .free henters hget⟩

/-- Opening a path that leads to a place asks for access to it, and then puts an empty file there,
with the permission bits that are kept. -/
theorem create_eq (h : s.resolve .make path = .ok target) (hplace : s.IsPlace target.location) :
    s.create path = (s.grant .write target.location).map fun _ => (target.location,
      s.put target.location (.file .empty (s.keptMode target.location))) := by
  have hget := (resolve_eq_ok_iff.1 h).2.get?_location
  rw [create, h]
  cases target with
  | free parent name =>
      have hnone : s.get? (parent ++ [name]) = none := hget
      cases hgrant : s.grant .write (parent ++ [name]) <;>
        simp [bind, Except.bind, pure, Except.pure, Except.map, Target.location, keptMode, hnone,
          hgrant]
  | found taken node =>
      have hsome : s.get? taken = some node := hget
      rcases hplace with hnone | ⟨content, mode, hfile⟩
      · exact (Option.some_ne_none _ (hsome.symm.trans hnone)).elim
      · obtain rfl := Option.some.inj (hsome.symm.trans hfile)
        cases hgrant : s.grant .write taken <;>
          simp [bind, Except.bind, pure, Except.pure, Except.map, Target.location, keptMode, hsome,
            hgrant]

theorem create_of_resolve (h : s.resolve .make path = .ok target)
    (hplace : s.IsPlace target.location) (hgrant : s.grant .write target.location = .ok ()) :
    s.create path = .ok (target.location,
      s.put target.location (.file .empty (s.keptMode target.location))) := by
  rw [create_eq h hplace, hgrant]
  rfl

theorem create_refused {e : FileError} (h : s.resolve .make path = .ok target)
    (hplace : s.IsPlace target.location) (hgrant : s.grant .write target.location = .error e) :
    s.create path = .error e := by
  rw [create_eq h hplace, hgrant]
  rfl

/-- In a tree a file can be made at any place that a path names. -/
theorem WellFormed.make_of_name (hs : s.WellFormed) (h : s.resolve .name path = .ok target)
    (hplace : s.IsPlace target.location) : s.resolve .make path = .ok target := by
  rw [resolve_eq_ok_iff] at h ⊢
  obtain ⟨hcheck, hleads⟩ := h
  obtain ⟨hends, init, name, hnames, hname⟩ := hs.ends_with_name (hs.start path) hleads hplace
  refine ⟨hcheck, hleads.make_of_name hplace ?_⟩
  rw [Path.steps_of_not_endsWithSlash hends, hnames, List.getLast?_append, List.getLast?_singleton,
    Option.some_or]
  intro hempty
  exact hname.1 (.inl (Option.some.inj hempty))

/-- After a file was put where a path leads, the path leads to it. -/
theorem node_put (h : s.resolve p path = .ok target) (hplace : s.IsPlace target.location)
    (content : ByteArray) (mode : Nat) :
    (s.put target.location (.file content mode)).node path =
      .ok (target.location, .file content mode) := by
  rw [resolve_eq_ok_iff] at h
  rw [node_eq_ok_iff, resolve_eq_ok_iff]
  exact ⟨h.1, h.2.use_put hplace content mode⟩

end Store

end Roster
