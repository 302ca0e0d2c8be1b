/-
**Objects in the order of their keys.**

A reader gives the members of an object in the order of their keys, each key once.  A value whose
objects are in that order already is therefore read back as it is, and every value that is read is of
this kind.

Main definitions:

* `Roster.Json.Sorted` — the values whose objects have their members in the order of their keys.

Main results:

* `Roster.Json.memberMap_of_sorted` — members in the order of their keys stay where they are;
* `Roster.Json.Sorted.normal_eq` — **a sorted value is its own normal form**;
* `Roster.Json.sortedKeys_memberMap` — the members of a map are in the order of their keys;
* `Roster.Json.sorted_of_parse` — **values that are read are sorted**.
-/

import Roster.Proofs.Json.Elements
import Roster.Proofs.Json.RoundTrip

set_option relaxedAutoImplicit false
set_option autoImplicit false

namespace Roster.Json

/-- The keys of some members stand in increasing order. -/
def SortedKeys (ms : List (String × Value)) : Prop := (ms.map Prod.fst).Pairwise (· < ·)

/-- The values whose objects have their members in the order of their keys. -/
inductive Sorted : Value → Prop where
  /-- The null value. -/
  | null : Sorted .null
  /-- A truth value. -/
  | bool (b : Bool) : Sorted (.bool b)
  /-- A number. -/
  | number (n : Number) : Sorted (.number n)
  /-- A text. -/
  | string (s : String) : Sorted (.string s)
  /-- Sorted items, in any order. -/
  | array {items : List Value} (h : ∀ v ∈ items, Sorted v) : Sorted (.array items)
  /-- Sorted members, in the order of their keys. -/
  | object {members : List (String × Value)} (hkeys : SortedKeys members)
      (h : ∀ m ∈ members, Sorted m.2) : Sorted (.object members)

/-! ### Members -/

theorem SortedKeys.nodup {ms : List (String × Value)} (h : SortedKeys ms) :
    (ms.map Prod.fst).Nodup := by
  refine List.Pairwise.imp ?_ h
  rintro a b hlt rfl
  exact String.lt_irrefl a hlt

theorem mem_insertMember {key : String} {v : Value} {ms : List (String × Value)}
    {m : String × Value} (h : m ∈ insertMember key v ms) : m = (key, v) ∨ m ∈ ms := by
  induction ms with
  | nil => exact .inl (List.mem_singleton.1 h)
  | cons m' ms ih =>
      rw [insertMember] at h
      split at h
      · exact List.mem_cons.1 h
      split at h
      · exact (List.mem_cons.1 h).imp_right (List.mem_cons_of_mem m')
      · rcases List.mem_cons.1 h with rfl | h
        · exact .inr List.mem_cons_self
        · exact (ih h).imp_right (List.mem_cons_of_mem m')

/-- A member is put where its key belongs. -/
theorem SortedKeys.insertMember {ms : List (String × Value)} (h : SortedKeys ms) (key : String)
    (v : Value) : SortedKeys (insertMember key v ms) := by
  induction ms with
  | nil => exact List.pairwise_singleton _ _
  | cons m ms ih =>
      obtain ⟨hm, hms⟩ := List.pairwise_cons.1 h
      rw [Json.insertMember]
      split
      · rename_i hlt
        refine List.pairwise_cons.2 ⟨?_, h⟩
        intro k hk
        rcases List.mem_cons.1 hk with rfl | hk
        · exact hlt
        · exact String.lt_trans hlt (hm k hk)
      split
      · rename_i heq
        exact List.pairwise_cons.2 ⟨fun k hk => heq ▸ hm k hk, hms⟩
      · rename_i hlt hne
        have hafter : m.1 < key := by
          rcases Std.lt_trichotomy key m.1 with hbefore | heq | hafter
          · exact absurd hbefore hlt
          · exact absurd heq hne
          · exact hafter
        refine List.pairwise_cons.2 ⟨?_, ih hms⟩
        intro k hk
        obtain ⟨m', hm', rfl⟩ := List.mem_map.1 hk
        rcases mem_insertMember hm' with rfl | hm'
        · exact hafter
        · exact hm m'.1 (List.mem_map_of_mem hm')

/-- What holds before the first member and is kept by every other holds of a map. -/
theorem memberMap_induction {motive : List (String × Value) → Prop} {ms : List (String × Value)}
    (nil : motive []) (insert : ∀ acc, motive acc → ∀ m ∈ ms, motive (insertMember m.1 m.2 acc)) :
    motive (memberMap ms) := by
  have hfold : ∀ (ms' acc : List (String × Value)), (∀ m ∈ ms', m ∈ ms) → motive acc →
      motive (ms'.foldl (fun acc m => insertMember m.1 m.2 acc) acc) := by
    intro ms'
    induction ms' with
    | nil => exact fun _ _ hacc => hacc
    | cons m ms' ih =>
        intro acc hms hacc
        exact ih _ (fun m hm => hms m (List.mem_cons_of_mem _ hm))
          (insert acc hacc m (hms m List.mem_cons_self))
  exact hfold ms [] (fun _ hm => hm) nil

/-- The members of a map are in the order of their keys. -/
theorem sortedKeys_memberMap (ms : List (String × Value)) : SortedKeys (memberMap ms) :=
  memberMap_induction List.Pairwise.nil fun _ hacc m _ => hacc.insertMember m.1 m.2

/-- A member of a map is one of those that it was made of. -/
theorem mem_of_mem_memberMap {ms : List (String × Value)} {m : String × Value}
    (h : m ∈ memberMap ms) : m ∈ ms := by
  have hall : ∀ m ∈ memberMap ms, m ∈ ms :=
    memberMap_induction (motive := fun acc => ∀ m ∈ acc, m ∈ ms) (fun _ hm => nomatch hm)
      fun acc hacc m hm m' hm' => (mem_insertMember hm').elim (fun heq => heq ▸ hm) (hacc m')
  exact hall m h

/-- A member whose key comes after all others is put at the end. -/
theorem insertMember_of_lt {key : String} {v : Value} {ms : List (String × Value)}
    (h : ∀ m ∈ ms, m.1 < key) : insertMember key v ms = ms ++ [(key, v)] := by
  induction ms with
  | nil => rfl
  | cons m ms ih =>
      have hm : m.1 < key := h m List.mem_cons_self
      have hne : key ≠ m.1 := by
        rintro rfl
        exact String.lt_irrefl _ hm
      rw [insertMember, if_neg (String.lt_asymm hm), if_neg hne,
        ih fun m hm => h m (List.mem_cons_of_mem _ hm), List.cons_append]

/-- Members that come in the order of their keys are put one behind the other. -/
theorem foldl_insertMember_of_sorted (acc : List (String × Value)) {ms : List (String × Value)}
    (h : SortedKeys (acc ++ ms)) :
    ms.foldl (fun acc m => insertMember m.1 m.2 acc) acc = acc ++ ms := by
  induction ms generalizing acc with
  | nil => rw [List.foldl_nil, List.append_nil]
  | cons m ms ih =>
      have hlast : ∀ a ∈ acc, a.1 < m.1 := by
        intro a ha
        rw [SortedKeys, List.map_append, List.pairwise_append] at h
        exact h.2.2 a.1 (List.mem_map_of_mem ha) m.1 (List.mem_map_of_mem List.mem_cons_self)
      have happend : acc ++ m :: ms = acc ++ [m] ++ ms := by rw [List.append_assoc]; rfl
      rw [happend] at h ⊢
      rw [List.foldl_cons, insertMember_of_lt hlast]
      exact ih _ h

/-- Members in the order of their keys stay where they are. -/
theorem memberMap_of_sorted {ms : List (String × Value)} (h : SortedKeys ms) :
    memberMap ms = ms :=
  foldl_insertMember_of_sorted [] h

/-! ### Values -/

/-- **A sorted value is its own normal form.** -/
theorem Sorted.normal_eq {v : Value} (h : Sorted v) : v.normal = v := by
  induction h with
  | null | bool | number | string => rfl
  | @array items h ih =>
      have hitems : items.map Value.normal = items := by
        rw [List.map_congr_left ih, List.map_id']
      rw [Value.normal, normalItems_eq, hitems]
  | @object members hkeys h ih =>
      have hmembers : (members.map fun m => (m.1, m.2.normal)) = members := by
        have hsame : ∀ m ∈ members, (m.1, m.2.normal) = m := by
          intro m hm
          rw [ih m hm]
        rw [List.map_congr_left hsame, List.map_id']
      rw [Value.normal, normalMembers_eq, hmembers, memberMap_of_sorted hkeys]

/-! ### Values that are read -/

/-- What a loop has read, its reader has read somewhere. -/
theorem EntryRun.forall_mem {α : Type} {next : Bool → Bytes → Except Fault Next} {r : Reader α}
    {first : Bool} {s rest : Bytes} {as : List α} (h : EntryRun next r first s as rest)
    {P : α → Prop} (hP : ∀ {s rest a}, r.run s = .ok (a, rest) → P a) : ∀ a ∈ as, P a := by
  induction h with
  | finished => exact fun _ ha => nomatch ha
  | entry _ ha _ ih => exact List.forall_mem_cons.2 ⟨hP ha, ih⟩

/-- Whatever stands within the brackets, if it is sorted then so is the whole. -/
theorem sorted_of_readValue {inner : Option (Reader Value)}
    (hinner : ∀ r ∈ inner, ∀ {s rest v}, r.run s = .ok (v, rest) → Sorted v) {s rest : Bytes}
    {v : Value} (h : readValue inner s = .ok (v, rest)) : Sorted v := by
  obtain ⟨b, t, -, hbegun⟩ := readValue_begun h
  cases v with
  | null => exact .null
  | bool b => exact .bool b
  | number n => exact .number n
  | string s => exact .string s
  | array vs =>
      obtain ⟨-, r, hr, harray⟩ := hbegun
      have hrun := readArray_eq_ok harray
      exact .array (hrun.forall_mem (hinner r hr))
  | object ms =>
      obtain ⟨-, r, hr, hobject⟩ := hbegun
      obtain ⟨read, rfl, hrun⟩ := readObject_eq_ok hobject
      refine .object (sortedKeys_memberMap read) fun m hm => ?_
      refine hrun.forall_mem (P := fun m => Sorted m.2) (fun hmember => ?_) m (mem_of_mem_memberMap hm)
      obtain ⟨_, _, -, -, hv⟩ := readMember_eq_ok hmember
      exact hinner r hr hv

theorem sorted_of_run {depth : Nat} {s rest : Bytes} {v : Value}
    (h : (value depth).run s = .ok (v, rest)) : Sorted v := by
  induction depth generalizing s rest v with
  | zero =>
      have hnone : ∀ r ∈ (none : Option (Reader Value)), ∀ {s rest v}, r.run s = .ok (v, rest) →
          Sorted v := by simp
      exact sorted_of_readValue hnone h
  | succ depth ih =>
      have hsome : ∀ r ∈ some (value depth), ∀ {s rest v}, r.run s = .ok (v, rest) →
          Sorted v := by
        intro r hr s rest v hv
        obtain rfl := Option.some.inj hr
        exact ih hv
      exact sorted_of_readValue hsome h

/-- **Values that are read are sorted.** -/
theorem sorted_of_parse {s : Bytes} {v : Value} (h : parse s = .ok v) : Sorted v := by
  unfold parse at h
  split at h
  · cases h
  rename_i hrun
  split at h
  · cases h
  obtain rfl := Except.ok.inj h
  exact sorted_of_run hrun

end Roster.Json
