/-
**JSON values.**

A JSON value is a tree.  Numbers are integers of 64 bits, signed or unsigned, or doubles; the
members of an object are kept in a list.  A tree says in which order its members are written; as
a *map* from keys to values an object is read by `Value.get?`, and the trees that a reader
produces have their members sorted by key, without repetition.

Main definitions:

* `Roster.Json.Number`, `Roster.Json.Value` — the trees, with induction on them as `Value.ind`;
* `Roster.Json.Value.get?` — the value of a key;
* `Roster.Json.insertMember` — a member put in its place by key, replacing one of the same key.
-/

import Roster.Double

set_option relaxedAutoImplicit false
set_option autoImplicit false

namespace Roster.Json

inductive Number where
  | integer (n : Int)
  /-- A finite double. -/
  | double (x : Double)
  deriving DecidableEq, Inhabited, Repr

inductive Value where
  | null
  | bool (b : Bool)
  | number (n : Number)
  | string (s : String)
  | array (items : List Value)
  /-- A list of members, each a key and a value. -/
  | object (members : List (String × Value))
  deriving Inhabited, Repr

/-- Induction on values: what holds of an array if it holds of its items, and of an object if it holds
of the values of its members, holds of all. -/
@[elab_as_elim, induction_eliminator]
theorem Value.ind {motive : Value → Prop} (null : motive .null) (bool : ∀ b, motive (.bool b))
    (number : ∀ n, motive (.number n)) (string : ∀ s, motive (.string s))
    (array : ∀ items, (∀ v ∈ items, motive v) → motive (.array items))
    (object : ∀ members, (∀ m ∈ members, motive m.2) → motive (.object members)) (v : Value) :
    motive v :=
  @Value.rec motive (fun items => ∀ v ∈ items, motive v) (fun members => ∀ m ∈ members, motive m.2)
    (fun m => motive m.2) null bool number string array object
    (fun _ h => nomatch h) (fun _ _ hv hvs => List.forall_mem_cons.2 ⟨hv, hvs⟩)
    (fun _ h => nomatch h) (fun _ _ hm hms => List.forall_mem_cons.2 ⟨hm, hms⟩)
    (fun _ _ hv => hv) v

/-- The value of a key in a list of members: that of the first member with the key. -/
def lookup (key : String) : List (String × Value) → Option Value
  | [] => none
  | (k, v) :: rest => if k = key then some v else lookup key rest

/-- The value of a key, if the value is an object that has the key. -/
def Value.get? : Value → String → Option Value
  | .object members, key => lookup key members
  | _, _ => none

/-- A member put in its place in a list that is sorted by key; a member of the same key is
replaced. -/
def insertMember (key : String) (v : Value) : List (String × Value) → List (String × Value)
  | [] => [(key, v)]
  | (k, w) :: rest =>
    if key < k then (key, v) :: (k, w) :: rest
    else if key = k then (key, v) :: rest
    else (k, w) :: insertMember key v rest

/-- Looking up a key after inserting a member finds the new value, and all other keys are as they
were. -/
theorem lookup_insertMember (key k' : String) (v : Value) (ms : List (String × Value)) :
    lookup k' (insertMember key v ms) = if key = k' then some v else lookup k' ms := by
  induction ms with
  | nil => simp [insertMember, lookup]
  | cons m ms ih =>
    obtain ⟨k, w⟩ := m
    simp only [insertMember]
    split
    · simp [lookup]
    · split
      · rename_i h
        subst h
        by_cases hk : key = k' <;> simp [lookup, hk]
      · rename_i h
        by_cases hk : k = k'
        · subst hk
          simp [lookup, h]
        · simp [lookup, hk, ih]

end Roster.Json
