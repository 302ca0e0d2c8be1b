/-
**At the edge of what a store allows.**

A path can be written at length, with more slashes than it needs, until it is longer than a path may
be; the path of the staging file for the same destination is too long before that.  A disk of so many
bytes gives each file what the other ones leave, so what there is space for beside all files there is
space for in the place of one of them.  An ordinary user may not write to every file of his own, and
may put another one in its place all the same.

Main definitions:

* `Roster.Path.behindSlashes` — a short path written at length;
* `Roster.Store.oneDirectory`, `Roster.Store.oneFile` — stores with one node besides their root.

Main results:

* `Roster.Store.resolve_bare`, `Roster.Store.resolve_oneFile` — a short path in small stores;
* `Roster.Store.resolve_behindSlashes`, `Roster.Store.check_behindSlashes_far` — the path is found as
  long as it is short enough;
* `Roster.utf8ByteSize_stagingPath_behindSlashes` — the path of the staging file is longer;
* `Roster.Store.hasSpace_of_disk` — **the space on a disk**;
* `Roster.Store.grant_write_of_free`, `Roster.Store.grant_write_of_mode`,
  `Roster.Store.grant_replace` — what an ordinary user may do.
-/

import Roster.Proofs.Store.Beside

set_option relaxedAutoImplicit false
set_option autoImplicit false

namespace Roster

/-! ### Paths at length -/

/-- A destination in the directory `d`, behind so many slashes and one more. -/
def Path.behindSlashes (n : Nat) : Path :=
  ⟨"." ++ String.ofList (List.replicate (n + 1) '/') ++ "d/f"⟩

section

variable (n : Nat)

theorem Path.toList_behindSlashes :
    (behindSlashes n).text.toList = '.' :: List.replicate (n + 1) '/' ++ ['d', '/', 'f'] := by
  simp [behindSlashes]

theorem Path.names_behindSlashes : (behindSlashes n).names = [".", "d", "f"] := by
  have hslashes : ∀ cs, namesOf (List.replicate n '/' ++ cs) = namesOf cs := by
    intro cs
    induction n with
    | zero => rfl
    | succ n ih => rw [List.replicate_succ, List.cons_append, namesOf_slash, ih]
  have hsplit : '.' :: List.replicate (n + 1) '/' ++ ['d', '/', 'f'] =
      ['.'] ++ '/' :: (List.replicate n '/' ++ ['d', '/', 'f']) := by
    simp [List.replicate_succ]
  rw [names_eq, toList_behindSlashes, hsplit, namesOf_append_slash, hslashes]
  decide

theorem Path.utf8ByteSize_slashes : (String.ofList (List.replicate n '/')).utf8ByteSize = n := by
  induction n with
  | zero => rfl
  | succ n ih =>
      rw [List.replicate_succ, String.ofList_cons, String.utf8ByteSize_append, ih,
        String.utf8ByteSize_singleton]
      exact Nat.add_comm 1 n

theorem stagingDirectory_behindSlashes :
    stagingDirectory (Path.behindSlashes n) =
      ⟨String.ofList ('.' :: List.replicate (n + 1) '/' ++ ['d'])⟩ := by
  have htext : (Path.behindSlashes n).text.toList =
      ('.' :: List.replicate (n + 1) '/' ++ ['d']) ++ '/' :: ['f'] := by
    rw [Path.toList_behindSlashes]
    simp
  have hreverse : ('.' :: List.replicate (n + 1) '/' ++ ['d']).reverse =
      ['d'].reverse ++ ('.' :: List.replicate (n + 1) '/').reverse := List.reverse_append
  have hcons : ['d'].reverse ++ ('.' :: List.replicate (n + 1) '/').reverse =
      'd' :: ('.' :: List.replicate (n + 1) '/').reverse := rfl
  rw [stagingDirectory_of_slash htext (by decide) (by decide) (by decide), hreverse,
    Path.trimBack_of_name (by decide) (by decide) (by decide), hcons, Path.ofTrimmed, ← hcons,
    ← hreverse, List.reverse_reverse]
  simp

theorem utf8ByteSize_behindSlashes : (Path.behindSlashes n).text.utf8ByteSize = n + 5 := by
  rw [Path.behindSlashes, String.utf8ByteSize_append, String.utf8ByteSize_append,
    Path.utf8ByteSize_slashes]
  have hfirst : ".".utf8ByteSize = 1 := rfl
  have hlast : "d/f".utf8ByteSize = 3 := rfl
  omega

/-- The path of the staging file is longer than that of the destination: its name is, and the
directory is looked for from the root on. -/
theorem utf8ByteSize_stagingPath_behindSlashes (s : Store) :
    n + 23 ≤ (s.stagingPath (Path.behindSlashes n)).text.utf8ByteSize := by
  have hdirectory : (stagingDirectory (Path.behindSlashes n)).text.utf8ByteSize = n + 3 := by
    rw [stagingDirectory_behindSlashes, String.ofList_append, String.ofList_cons,
      String.utf8ByteSize_append, String.utf8ByteSize_append, Path.utf8ByteSize_slashes]
    have hfirst : (String.singleton '.').utf8ByteSize = 1 := rfl
    have hlast : (String.ofList ['d']).utf8ByteSize = 1 := rfl
    omega
  have hrelative : (stagingDirectory (Path.behindSlashes n)).isAbsolute = false := by
    simp [stagingDirectory_behindSlashes, Path.isAbsolute]
  have hroot : 1 ≤ (Store.locationText s.here).utf8ByteSize := by
    have hslash : "/".utf8ByteSize = 1 := rfl
    rw [Store.locationText, String.utf8ByteSize_append]
    omega
  have hname : (Store.stagingName 0).utf8ByteSize = 19 := by decide +kernel
  have hparent := Path.utf8ByteSize_le_join (p := ⟨Store.locationText s.here⟩) hrelative
  have hstaging := Path.utf8ByteSize_le_join (p := s.stagingParent (Path.behindSlashes n))
    (q := ⟨Store.stagingName 0⟩) (by decide)
  rw [← Store.stagingParent] at hparent
  rw [← Store.stagingPath] at hstaging
  dsimp only at hparent hstaging
  omega

theorem check_behindSlashes (hshort : n + 5 ≤ Store.maxPath) :
    Store.check (Path.behindSlashes n) = .ok () := by
  refine Store.check_eq_ok ?_ ?_ ?_
  · have hzero : '\x00' ∉ (Path.behindSlashes n).text.toList := by
      rw [Path.toList_behindSlashes]
      simp
    simpa [Path.hasZero] using hzero
  · intro hempty
    have hlist := Path.toList_behindSlashes n
    simp [hempty] at hlist
  · rw [utf8ByteSize_behindSlashes]
    exact hshort

/-- Behind too many slashes the path is too long. -/
theorem Store.check_behindSlashes_far (hfar : Store.maxPath < n + 5) :
    Store.check (Path.behindSlashes n) = .error .nameTooLong := by
  have hlist := Path.toList_behindSlashes n
  have hzero : (Path.behindSlashes n).hasZero = false := by simp [Path.hasZero, hlist]
  have hempty : (Path.behindSlashes n).text ≠ "" := by
    intro hempty
    simp [hempty] at hlist
  rw [← utf8ByteSize_behindSlashes] at hfar
  simp [Store.check, hzero, hempty, hfar]

end

/-! ### Small stores -/

/-- At the root all paths start there. -/
theorem Store.start_of_root {s : Store} (hhere : s.here = []) (path : Path) : s.start path = [] := by
  rw [Store.start, hhere]
  split <;> rfl

/-- The name of a file is free where there is nothing but the root, whatever is said about space and
access. -/
theorem Store.resolve_bare {s : Store} (hentries : s.entries = bare.entries) (hhere : s.here = [])
    (p : Purpose) : s.resolve p ⟨"data.json"⟩ = .ok (.free [] "data.json") := by
  have hstart := start_of_root hhere ⟨"data.json"⟩
  have hget : s.get? (s.start ⟨"data.json"⟩ ++ ["data.json"]) = none := by
    rw [hstart, get?, hentries]
    rfl
  rw [resolve_of_name (check_eq_ok (by decide) (by decide) (by decide)) (by decide)
    ⟨by decide, by simp, by decide⟩ hget, hstart]

/-- A root with one directory in it. -/
def Store.oneDirectory : Store where
  entries := [([], .directory directoryMode), (["d"], .directory directoryMode)]
  here := []

theorem Store.wellFormed_oneDirectory : oneDirectory.WellFormed := by
  have hroot : oneDirectory.HasDirectory [] := ⟨_, rfl⟩
  refine { root := hroot, up := ?_, here := hroot, named := by simp [oneDirectory] }
  rintro loc ⟨mode, hget⟩
  by_cases hempty : loc = []
  · subst hempty
    exact hroot
  · by_cases hd : loc = ["d"]
    · subst hd
      exact hroot
    · simp [get?, oneDirectory, find?, Ne.symm hempty, Ne.symm hd] at hget

/-- The destination behind the slashes is free. -/
theorem Store.resolve_behindSlashes (n : Nat) (hshort : n + 5 ≤ maxPath) :
    oneDirectory.resolve .name (Path.behindSlashes n) = .ok (.free ["d"] "f") := by
  have hends : (Path.behindSlashes n).endsWithSlash = false := by
    rw [Path.endsWithSlash, Path.toList_behindSlashes, List.getLast?_append]
    rfl
  rw [resolve_eq_ok_iff, start_of_root rfl, Path.steps_of_not_endsWithSlash hends,
    Path.names_behindSlashes]
  refine ⟨check_behindSlashes n hshort, .stay (.inr rfl) ?_⟩
  refine .directory ⟨by decide, by simp, by decide⟩ rfl ?_
  exact .free ⟨by decide, by simp, by decide⟩ rfl

/-- A root with one file in it. -/
def Store.oneFile (content : ByteArray) (mode : Nat) : Store where
  entries := [([], .directory directoryMode), (["data.json"], .file content mode)]
  here := []

/-- The name of the file leads to it, whatever is said about space and access. -/
theorem Store.resolve_oneFile {s : Store} {content : ByteArray} {mode : Nat}
    (hentries : s.entries = (oneFile content mode).entries) (hhere : s.here = []) (p : Purpose) :
    s.resolve p ⟨"data.json"⟩ = .ok (.found ["data.json"] (.file content mode)) := by
  have hcheck : check ⟨"data.json"⟩ = .ok () :=
    check_eq_ok (by decide) (by decide) (by decide)
  have hsteps : Path.steps ⟨"data.json"⟩ = ["data.json"] := by decide
  have hget : s.get? ([] ++ ["data.json"]) = some (.file content mode) := by
    rw [get?, hentries]
    rfl
  rw [resolve_eq_ok_iff, start_of_root hhere, hsteps]
  exact ⟨hcheck, .node ⟨by decide, by simp, by decide⟩ hget (by simp) (by simp)⟩

theorem Store.wellFormed_oneFile {s : Store} {content : ByteArray} {mode : Nat}
    (hentries : s.entries = (oneFile content mode).entries) (hhere : s.here = []) :
    s.WellFormed := by
  have hroot : s.HasDirectory [] := ⟨directoryMode, by rw [get?, hentries]; rfl⟩
  refine { root := hroot, up := ?_, here := hhere ▸ hroot, named := by simp [hhere] }
  rintro loc ⟨m, hget⟩
  by_cases hempty : loc = []
  · subst hempty
    exact hroot
  · by_cases hfile : loc = ["data.json"]
    · subst hfile
      rw [get?, hentries] at hget
      cases hget
    · simp [get?, hentries, oneFile, find?, Ne.symm hempty, Ne.symm hfile] at hget

/-! ### The space on a disk -/

namespace Store

variable {s : Store} {loc : Location} {capacity size : Nat}

/-- Fewer entries take up no more space. -/
theorem usedSpace_filter_le (p : Location × Node → Bool) (es : List (Location × Node)) :
    usedSpace (es.filter p) ≤ usedSpace es := by
  induction es with
  | nil => exact Nat.le_refl _
  | cons e es ih =>
      rw [List.filter_cons, usedSpace]
      split
      · rw [usedSpace]
        omega
      · omega

/-- What a disk has space for beside all its files, it has space for in the place of any of them. -/
theorem hasSpace_of_disk (h : s.space = diskSpace capacity)
    (hsize : size + usedSpace s.entries ≤ capacity) (loc : Location) : s.HasSpace loc size := by
  intro k e hk
  rw [h, diskSpace] at hk
  obtain ⟨rfl, -⟩ := Prod.mk.inj (Option.some.inj hk)
  have hfewer : usedSpace (s.others loc) ≤ usedSpace s.entries := usedSpace_filter_le _ _
  omega

/-! ### The rights of a user -/

/-- An ordinary user may make a file wherever there is nothing. -/
theorem grant_write_of_free (h : s.refusal = ownerRefusal) (hfree : s.get? loc = none) :
    s.grant .write loc = .ok () := by
  rw [grant, h, hfree]
  rfl

/-- An ordinary user may write to what is no file, and to files whose permission bits say so. -/
theorem grant_write_of_mode (h : s.refusal = ownerRefusal)
    (hmode : ∀ content mode, s.get? loc = some (.file content mode) → mode &&& 0o200 ≠ 0) :
    s.grant .write loc = .ok () := by
  rw [grant, h]
  cases hget : s.get? loc with
  | none => rfl
  | some node =>
      cases node with
      | file content mode => rw [ownerRefusal, if_neg (hmode content mode hget)]
      | _ => rfl

/-- An ordinary user may put a file in the place of any other. -/
theorem grant_replace (h : s.refusal = ownerRefusal) (loc : Location) :
    s.grant .replace loc = .ok () := by
  rw [grant, h]
  rfl

end Store

end Roster
