/-
**Members as a map.**

A reader puts the members of an object in their places one after the other.  What comes out is a
map: it has the keys that occur in the text, and under each key the value of the last member of
that key.

Main definitions:

* `Roster.Json.memberMap` — the map of some members.

Main results:

* `Roster.Json.lookup_memberMap` — **of two members of one key the later counts**;
* `Roster.Json.mem_keys_memberMap` — no key is lost and none is added;
* `Roster.Json.lookup_of_mem` — a key that occurs once has the value that stands there.
-/

import Roster.Json.Value

set_option relaxedAutoImplicit false
set_option autoImplicit false

namespace Roster.Json

/-- The map of some members: each is put in its place, one after the other. -/
def memberMap (ms : List (String × Value)) : List (String × Value) :=
  ms.foldl (fun acc m => insertMember m.1 m.2 acc) []

/-! ### Looking up -/

theorem lookup_append (k : String) (xs ys : List (String × Value)) :
    lookup k (xs ++ ys) = (lookup k xs).or (lookup k ys) := by
  induction xs with
  | nil => rfl
  | cons x xs ih =>
      obtain ⟨key, v⟩ := x
      by_cases h : key = k
      · simp [lookup, h]
      · simp [lookup, h, ih]

theorem lookup_foldl_insertMember (k : String) (ms acc : List (String × Value)) :
    lookup k (ms.foldl (fun acc m => insertMember m.1 m.2 acc) acc) =
      (lookup k ms.reverse).or (lookup k acc) := by
  induction ms generalizing acc with
  | nil => rfl
  | cons m ms ih =>
      obtain ⟨key, v⟩ := m
      rw [List.foldl_cons, ih, lookup_insertMember, List.reverse_cons, lookup_append]
      by_cases h : key = k
      · cases lookup k ms.reverse <;> simp [lookup, h]
      · simp [lookup, h]

/-- **Of two members of one key the later counts.** -/
theorem lookup_memberMap (k : String) (ms : List (String × Value)) :
    lookup k (memberMap ms) = lookup k ms.reverse := by
  rw [memberMap, lookup_foldl_insertMember]
  simp [lookup]

theorem mem_keys_iff (k : String) (ms : List (String × Value)) :
    k ∈ ms.map Prod.fst ↔ (lookup k ms).isSome = true := by
  induction ms with
  | nil => simp [lookup]
  | cons m ms ih =>
      obtain ⟨key, v⟩ := m
      by_cases h : key = k
      · simp [lookup, h]
      · simp [lookup, h, Ne.symm h, ← ih]

/-- No key is lost and none is added. -/
theorem mem_keys_memberMap (k : String) (ms : List (String × Value)) :
    k ∈ (memberMap ms).map Prod.fst ↔ k ∈ ms.map Prod.fst := by
  rw [mem_keys_iff, lookup_memberMap, ← mem_keys_iff, List.map_reverse, List.mem_reverse]

/-- A key that occurs once has the value that stands there. -/
theorem lookup_of_mem {k : String} {v : Value} {ms : List (String × Value)}
    (hd : (ms.map Prod.fst).Nodup) (h : (k, v) ∈ ms) : lookup k ms = some v := by
  induction ms with
  | nil => simp at h
  | cons m ms ih =>
      obtain ⟨key, w⟩ := m
      rw [List.map_cons, List.nodup_cons] at hd
      rcases List.mem_cons.1 h with heq | h
      · obtain ⟨rfl, rfl⟩ := Prod.mk.inj heq
        simp [lookup]
      · have hk : key ≠ k := fun hk => hd.1 (List.mem_map.2 ⟨(k, v), h, hk.symm⟩)
        simp [lookup, hk, ih hd.2 h]

end Roster.Json
