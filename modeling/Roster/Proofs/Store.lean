/-
**What the operations on files change.**

A file that grows is a node put at one location again and again, and only the last of these nodes
is left; a staging file is put at a location that was free, and taking it away leaves the store
that was there before, entry by entry.  Each operation that can be refused has an inversion here:
what it does where it is not.

Main definitions:

* `Roster.Store.HasSpace` — there is space for so many bytes at a location.

Main results:

* `Roster.Store.put_put`, `Roster.Store.erase_put` — **the last node counts, and a new one can be
  taken away again**;
* `Roster.Store.get?_freshName` — a store never runs out of staging names;
* `Roster.Store.bound_put`, `Roster.Store.append_put` — a file does not change how long it may become,
  and it grows as far as that;
* `Roster.Store.bound_of_hasSpace` — where there is space the limit is the only bound;
* `Roster.Store.create_eq_ok`, `Roster.Store.stage_eq_ok`, `Roster.Store.rename_eq_ok` — what an
  operation does that is not refused.
-/

import Roster.Store

set_option relaxedAutoImplicit false
set_option autoImplicit false

namespace Roster

namespace Store

variable {s s' : Store} {loc : Location} {p : Path}

/-! ### The finite map -/

theorem insert_insert (loc : Location) (a b : Node) (es : List (Location × Node)) :
    insert loc b (insert loc a es) = insert loc b es := by
  induction es with
  | nil => simp [insert]
  | cons e es ih =>
      obtain ⟨l, n⟩ := e
      by_cases h : l = loc <;> simp [insert, h, ih]

/-- Of two nodes put at one location the last one counts. -/
@[simp] theorem put_put (s : Store) (loc : Location) (a b : Node) :
    (s.put loc a).put loc b = s.put loc b := by
  simp [put, insert_insert]

/-- A node that is put at a location changes no other one. -/
theorem get?_put_of_ne {l : Location} (h : l ≠ loc) (node : Node) :
    (s.put loc node).get? l = s.get? l := by
  simp [Ne.symm h]

/-- What is no file lies elsewhere than a file that has been put. -/
theorem ne_of_get?_put {l : Location} {node : Node} {content : ByteArray} {mode : Nat}
    (h : (s.put loc (.file content mode)).get? l = some node)
    (hnode : ∀ content mode, node ≠ .file content mode) : l ≠ loc := by
  rintro rfl
  rw [get?_put, if_pos rfl] at h
  exact hnode content mode (Option.some.inj h).symm

theorem find?_eq_none_iff {es : List (Location × Node)} :
    find? loc es = none ↔ ∀ e ∈ es, e.1 ≠ loc := by
  induction es with
  | nil => simp [find?]
  | cons e es ih =>
      obtain ⟨l, n⟩ := e
      by_cases h : l = loc <;> simp [find?, h, ih]

/-- A node that is put at a location is not among the entries at other locations. -/
@[simp] theorem others_put (s : Store) (loc : Location) (node : Node) :
    (s.put loc node).others loc = s.others loc := by
  simp only [others, put]
  induction s.entries with
  | nil => simp [insert]
  | cons e es ih =>
      obtain ⟨l, n⟩ := e
      by_cases h : l = loc
      · simp [insert, h]
      · rw [insert, if_neg h, List.filter_cons, List.filter_cons, ih]

/-- At a free location all entries are at other locations. -/
theorem others_of_free (h : s.get? loc = none) : s.others loc = s.entries :=
  List.filter_eq_self.2 fun e he => by simpa using find?_eq_none_iff.1 h e he

/-- Taking away a node that was put at a free location leaves the store before. -/
theorem erase_put (h : s.get? loc = none) (node : Node) : (s.put loc node).erase loc = s := by
  have hothers : (s.put loc node).others loc = s.entries := by rw [others_put, others_of_free h]
  exact congrArg (fun entries => { s with entries }) hothers

/-- If there is a node at a location, the location is among the entries. -/
theorem mem_entries_of_get? (h : s.get? loc ≠ none) : loc ∈ s.entries.map Prod.fst := by
  rw [get?, ne_eq, find?_eq_none_iff] at h
  obtain ⟨e, he⟩ := Classical.not_forall.1 h
  rw [Classical.not_imp, ne_eq, Classical.not_not] at he
  exact List.mem_map.2 ⟨e, he⟩

/-- A store with nothing but its root. -/
def bare : Store := { entries := [([], .directory directoryMode)], here := [] }

/-! ### Staging names -/

/-- The first staging name that is free is free: the store would have to hold more entries than it
has for all the numbers that are tried to be taken. -/
theorem get?_freshName (s : Store) (dir : Location) : s.get? (dir ++ [s.freshName dir]) = none := by
  rw [freshName]
  cases hfind : (List.range (s.entries.length + 1)).find? fun k =>
      (s.get? (dir ++ [stagingName k])).isNone with
  | some k => simpa using List.find?_some hfind
  | none =>
      -- the pigeonhole: as many different locations as there are numbers, all of them taken
      have htaken : ∀ k ∈ List.range (s.entries.length + 1),
          s.get? (dir ++ [stagingName k]) ≠ none := by
        intro k hk hnone
        have := List.find?_eq_none.1 hfind k hk
        simp [hnone] at this
      have hnodup :
          ((List.range (s.entries.length + 1)).map fun k => dir ++ [stagingName k]).Nodup := by
        refine List.Pairwise.map _ ?_ List.nodup_range
        intro j k hne heq
        exact hne (stagingName_injective (by simpa using heq))
      have hsubset : ((List.range (s.entries.length + 1)).map fun k => dir ++ [stagingName k]) ⊆
          s.entries.map Prod.fst := by
        intro l hl
        obtain ⟨k, hk, rfl⟩ := List.mem_map.1 hl
        exact mem_entries_of_get? (htaken k hk)
      have hlength := hnodup.length_le_of_subset hsubset
      simp only [List.length_map, List.length_range] at hlength
      omega

/-- A staging file is made at a location that was free, and nothing else is changed. -/
theorem stage_eq_ok {dir path : Path} (h : s.stage dir = .ok (loc, path, s')) :
    s.get? loc = none ∧ s' = s.put loc (.file .empty (fileMode s.umask)) := by
  unfold stage at h
  extract_lets full at h
  cases hnode : s.stagingNode full with
  | error e =>
      rw [hnode] at h
      cases h
  | ok found =>
      obtain ⟨parent, node⟩ := found
      rw [hnode] at h
      cases node with
      | directory mode =>
          dsimp only at h
          split at h
          · cases h
          · simp only [Except.ok.injEq, Prod.mk.injEq] at h
            obtain ⟨rfl, -, rfl⟩ := h
            exact ⟨get?_freshName s parent, rfl⟩
      | _ => cases h

/-! ### Space -/

/-- There is space for a file of so many bytes at a location. -/
def HasSpace (s : Store) (loc : Location) (size : Nat) : Prop :=
  ∀ k e, s.space loc (s.others loc) = some (k, e) → size ≤ k

/-- How long a file may become does not depend on the file. -/
@[simp] theorem bound_put (s : Store) (loc : Location) (node : Node) :
    (s.put loc node).bound loc = s.bound loc := by
  rw [bound, others_put]
  rfl

/-- A file of some size is not too long for a location exactly if it is not longer than any file may
be and there is space for it. -/
theorem le_bound_iff {size : Nat} :
    (∀ k e, s.bound loc = some (k, e) → size ≤ k) ↔
      (∀ k, s.limit = some k → size ≤ k) ∧ s.HasSpace loc size := by
  rw [bound, HasSpace]
  cases s.limit with
  | none => simp
  | some k =>
      cases s.space loc (s.others loc) with
      | none => simp
      | some b =>
          obtain ⟨j, e⟩ := b
          by_cases hk : k ≤ j
          · simp only [hk, if_true, Option.some.injEq, Prod.mk.injEq, and_imp, forall_eq',
              forall_apply_eq_imp_iff]
            omega
          · simp only [hk, if_false, Option.some.injEq, Prod.mk.injEq, and_imp, forall_eq',
              forall_apply_eq_imp_iff]
            omega

/-- Where there is space for more than a file may hold, the limit is what bounds it. -/
theorem bound_of_hasSpace {size k : Nat} {e : FileError} (hspace : s.HasSpace loc size)
    (hbound : s.bound loc = some (k, e)) (hlt : k < size) :
    s.limit = some k ∧ e = .fileTooLarge := by
  rw [bound] at hbound
  rw [HasSpace] at hspace
  cases hlimit : s.limit with
  | none =>
      rw [hlimit] at hbound
      exact (Nat.not_lt.2 (hspace k e hbound) hlt).elim
  | some j =>
      rw [hlimit] at hbound
      cases hs : s.space loc (s.others loc) with
      | none =>
          rw [hs] at hbound
          obtain ⟨rfl, rfl⟩ := Prod.mk.inj (Option.some.inj hbound)
          exact ⟨rfl, rfl⟩
      | some b =>
          obtain ⟨i, e'⟩ := b
          rw [hs] at hbound
          have hle := hspace i e' hs
          dsimp only at hbound
          split at hbound
          · obtain ⟨rfl, rfl⟩ := Prod.mk.inj (Option.some.inj hbound)
            exact ⟨rfl, rfl⟩
          · obtain ⟨rfl, -⟩ := Prod.mk.inj (Option.some.inj hbound)
            omega

/-! ### A file that grows -/

@[simp] theorem grow_put (s : Store) (loc : Location) (content bytes : ByteArray) (mode : Nat) :
    (s.put loc (.file content mode)).grow loc bytes =
      s.put loc (.file (content ++ bytes) mode) := by
  simp [grow]

@[simp] theorem putMode_put (s : Store) (loc : Location) (content : ByteArray) (mode mode' : Nat) :
    (s.put loc (.file content mode)).putMode loc mode' = s.put loc (.file content mode') := by
  simp [putMode]

@[simp] theorem room_put (s : Store) (loc : Location) (content : ByteArray) (mode : Nat) :
    (s.put loc (.file content mode)).room loc =
      (s.bound loc).map fun (k, e) => (k - content.size, e) := by
  simp [room]

/-- Bytes are added to a file as far as it may become that long. -/
theorem append_put (s : Store) (loc : Location) (content bytes : ByteArray) (mode : Nat) :
    (s.put loc (.file content mode)).append loc bytes =
      match s.bound loc with
      | none => (.ok (), s.put loc (.file (content ++ bytes) mode))
      | some (k, e) =>
        if bytes.size ≤ k - content.size then (.ok (), s.put loc (.file (content ++ bytes) mode))
        else (.error ⟨e, k - content.size⟩,
          s.put loc (.file (content ++ bytes.extract 0 (k - content.size)) mode)) := by
  cases h : s.bound loc <;> simp [append, h]

/-! ### Operations that are not refused -/

/-- A path leads to a file or to nothing. -/
def FileOrNothing (s : Store) (p : Path) : Prop :=
  ∀ loc node, s.node p = .ok (loc, node) → ∃ content mode, node = .file content mode

/-- Opening a path that leads to a file or to nothing puts an empty file where it leads. -/
theorem create_eq_ok (hfile : ∀ loc node, s.resolve .make p = .ok (.found loc node) →
      ∃ content mode, node = .file content mode)
    (h : s.create p = .ok (loc, s')) :
    ∃ target mode, s.resolve .make p = .ok target ∧ target.location = loc ∧
      s' = s.put loc (.file .empty mode) := by
  unfold create at h
  cases hp : s.resolve .make p with
  | error e => simp [hp, bind, Except.bind] at h
  | ok target =>
      cases target with
      | free parent name =>
          simp only [hp, bind, Except.bind] at h
          split at h
          · cases h
          · obtain ⟨rfl, rfl⟩ := Prod.mk.inj (Except.ok.inj h)
            exact ⟨_, _, rfl, rfl, rfl⟩
      | found taken node =>
          obtain ⟨content, mode, rfl⟩ := hfile taken node hp
          simp only [hp, bind, Except.bind] at h
          split at h
          · cases h
          · obtain ⟨rfl, rfl⟩ := Prod.mk.inj (Except.ok.inj h)
            exact ⟨_, _, rfl, rfl, rfl⟩

/-- Moving a file takes its node away and puts it where the path names, which has no slash at its
end; a directory does not give way to a file. -/
theorem rename_eq_ok (h : s.rename loc p = .ok s') :
    ∃ target node, s.resolveName p = .ok target ∧ s.get? loc = some node ∧
      p.endsWithSlash = false ∧ (∀ l mode, target ≠ .found l (.directory mode)) ∧
      s' = (s.erase loc).put target.location node := by
  simp only [rename, bind, Except.bind] at h
  -- the checks before the move, each of which refuses or goes on
  split at h
  · cases h
  split at h
  · cases h
  split at h
  · cases h
  split at h
  · cases h
  split at h
  · cases h
  cases htarget : s.resolveName p with
  | error e =>
      rw [htarget] at h
      cases h
  | ok target =>
      simp only [htarget] at h
      split at h
      · cases h
      rename_i hslash
      have hends : p.endsWithSlash = false := by simpa using hslash
      split at h
      · cases h
      cases hnode : s.get? loc with
      | none =>
          rw [hnode] at h
          split at h <;> simp_all
      | some node =>
          rw [hnode] at h
          cases target with
          | free parent name =>
              exact ⟨_, node, rfl, rfl, hends, by simp, (Except.ok.inj h).symm⟩
          | found taken old =>
              cases old with
              | directory mode => cases h
              | _ => exact ⟨_, node, rfl, rfl, hends, by simp, (Except.ok.inj h).symm⟩

end Store

end Roster
