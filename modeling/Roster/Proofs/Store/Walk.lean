/-
**Where paths lead.**

A walk along a path fails in many ways and succeeds in few.  The walks that succeed are given here
as derivations, one rule for each kind of step, so that what holds of a walk is shown by induction
on its steps.

A walk reads a store at the locations that it passes, so two stores that differ at one location
send a walk the same way until it comes there.  Where a file has been put in place of what a path
led to, a walk along the path can therefore end nowhere but at this file, unless it fails: a link
that was replaced may have been needed on the way.

Main definitions:

* `Roster.Store.Leads` — **the walks that succeed**, as derivations.

Main results:

* `Roster.Store.walk_eq_ok_iff` — they are the walks that succeed;
* `Roster.Store.Leads.use_of_make`, `Roster.Store.Leads.name_of_use` — what a walk for one purpose
  says about a walk for another;
* `Roster.Store.Leads.replaced` — **a walk that is repeated after a replacement ends at the new
  file**.
-/

import Roster.Proofs.Store

set_option relaxedAutoImplicit false
set_option autoImplicit false

namespace Roster

namespace Store

variable {s s' : Store} {p q : Purpose} {links : Nat} {loc : Location} {name : String}
  {steps rest : List String} {target target' : Target}

/-! ### Walks as derivations -/

/-- A step that is a name: it is not empty, no dot and no two dots. -/
def IsName (step : String) : Prop := ¬(step = "" ∨ step = ".") ∧ ¬step = ".."

/-- A name that may be looked up with some steps to come: it is not too long, and it is not the
name of a file to be made with a slash after it. -/
structure Enters (p : Purpose) (name : String) (rest : List String) : Prop where
  /-- It is a name. -/
  isName : IsName name
  /-- No file is made with a slash after its name. -/
  slash : ¬(p = .make ∧ rest = [""])
  /-- It is not too long. -/
  short : ¬maxName < name.utf8ByteSize

instance (step : String) : Decidable (IsName step) :=
  inferInstanceAs (Decidable (¬(step = "" ∨ step = ".") ∧ ¬step = ".."))

/-- A name may be looked up for another purpose and with other steps to come, if no file is made
with a slash after it. -/
theorem Enters.again {rest' : List String} (h : Enters p name rest)
    (hslash : ¬(q = .make ∧ rest' = [""])) : Enters q name rest' :=
  ⟨h.isName, hslash, h.short⟩

/-- **The walks that succeed**: some steps lead from a location to a target, no more links being
followed than so many. -/
inductive Leads (s : Store) (p : Purpose) : Nat → Location → List String → Target → Prop where
  /-- No more steps. -/
  | here {links : Nat} {loc : Location} {node : Node} :
      s.get? loc = some node → Leads s p links loc [] (.found loc node)
  /-- A step that stays. -/
  | stay {links : Nat} {loc : Location} {step : String} {rest : List String} {target : Target} :
      step = "" ∨ step = "." → Leads s p links loc rest target →
      Leads s p links loc (step :: rest) target
  /-- A step up. -/
  | up {links : Nat} {loc : Location} {rest : List String} {target : Target} :
      Leads s p links loc.dropLast rest target → Leads s p links loc (".." :: rest) target
  /-- A last name that is free. -/
  | free {links : Nat} {loc : Location} {name : String} :
      Enters p name [] → s.get? (loc ++ [name]) = none →
      Leads s p links loc [name] (.free loc name)
  /-- The name of a directory. -/
  | directory {links : Nat} {loc : Location} {name : String} {rest : List String}
      {target : Target} {mode : Nat} :
      Enters p name rest → s.get? (loc ++ [name]) = some (.directory mode) →
      Leads s p links (loc ++ [name]) rest target → Leads s p links loc (name :: rest) target
  /-- The name of a link, which is what is asked for. -/
  | link {links : Nat} {loc : Location} {name : String} {path : Path} :
      p = .name → Enters p name [] → s.get? (loc ++ [name]) = some (.link path) →
      Leads s p links loc [name] (.found (loc ++ [name]) (.link path))
  /-- The name of a link, which is followed. -/
  | follow {links : Nat} {loc : Location} {name : String} {rest : List String} {target : Target}
      {path : Path} :
      ¬(rest = [] ∧ p = .name) → Enters p name rest →
      s.get? (loc ++ [name]) = some (.link path) →
      Leads s p links (if path.isAbsolute then [] else loc) (path.steps ++ rest) target →
      Leads s p (links + 1) loc (name :: rest) target
  /-- A last name that is neither that of a directory nor that of a link. -/
  | node {links : Nat} {loc : Location} {name : String} {node : Node} :
      Enters p name [] → s.get? (loc ++ [name]) = some node →
      (∀ mode, node = .directory mode → False) → (∀ path, node = .link path → False) →
      Leads s p links loc [name] (.found (loc ++ [name]) node)

/-- A walk that succeeds has a derivation. -/
theorem leads_of_walk (h : s.walk p links loc steps = .ok target) :
    Leads s p links loc steps target := by
  fun_induction walk s p links loc steps with
  | case1 links loc node hget =>
      obtain rfl := Except.ok.inj h
      exact .here hget
  | case3 links loc name rest hstep ih => exact .stay hstep (ih h)
  | case4 links loc rest hstep ih => exact .up (ih h)
  | case7 links loc name rest hstep hup hslash hshort next hget hrest =>
      obtain rfl := List.isEmpty_iff.1 hrest
      obtain rfl := Except.ok.inj h
      exact .free ⟨⟨hstep, hup⟩, hslash, hshort⟩ hget
  | case9 links loc name rest hstep hup hslash hshort next mode hget ih =>
      exact .directory ⟨⟨hstep, hup⟩, hslash, hshort⟩ hget (ih h)
  | case10 links loc name rest hstep hup hslash hshort next path hget hlast =>
      obtain ⟨hrest, hp⟩ := hlast
      obtain rfl := List.isEmpty_iff.1 hrest
      obtain rfl := Except.ok.inj h
      exact .link hp ⟨⟨hstep, hup⟩, hslash, hshort⟩ hget
  | case12 loc name rest hstep hup hslash hshort next path hget hlast links ih =>
      refine .follow ?_ ⟨⟨hstep, hup⟩, hslash, hshort⟩ hget (ih h)
      rintro ⟨rfl, hp⟩
      exact hlast ⟨rfl, hp⟩
  | case13 links loc name rest hstep hup hslash hshort next node hdir hlink hget hrest =>
      obtain rfl := List.isEmpty_iff.1 hrest
      obtain rfl := Except.ok.inj h
      exact .node ⟨⟨hstep, hup⟩, hslash, hshort⟩ hget hdir hlink
  | _ => cases h

/-- A walk that enters a name goes by the node of that name. -/
theorem Enters.walk_eq (h : Enters p name rest) (s : Store) (links : Nat) (loc : Location) :
    s.walk p links loc (name :: rest) =
      match s.get? (loc ++ [name]) with
      | none => if rest.isEmpty then .ok (.free loc name) else .error .notFound
      | some (.directory _) => s.walk p links (loc ++ [name]) rest
      | some (.link path) =>
        if rest.isEmpty ∧ p = .name then .ok (.found (loc ++ [name]) (.link path))
        else
          match links with
          | 0 => .error .tooManyLinks
          | links + 1 =>
            s.walk p links (if path.isAbsolute then [] else loc) (path.steps ++ rest)
      | some node =>
        if rest.isEmpty then .ok (.found (loc ++ [name]) node) else .error .notDirectory := by
  rw [walk, if_neg h.isName.1, if_neg h.isName.2]
  exact (if_neg h.slash).trans (if_neg h.short)

/-- A walk with a derivation succeeds. -/
theorem Leads.walk_eq (h : Leads s p links loc steps target) :
    s.walk p links loc steps = .ok target := by
  induction h with
  | here hget => rw [walk, hget]
  | stay hstep _ ih => rw [walk, if_pos hstep, ih]
  | up _ ih => rw [walk, if_neg (by decide), if_pos rfl, ih]
  | free h hget =>
      rw [h.walk_eq, hget]
      rfl
  | directory h hget _ ih =>
      rw [h.walk_eq, hget]
      exact ih
  | link hp h hget =>
      rw [h.walk_eq, hget]
      exact if_pos ⟨rfl, hp⟩
  | follow hlast h hget _ ih =>
      rw [h.walk_eq, hget]
      simpa [hlast] using ih
  | @node _ _ _ node h hget hdir hlink =>
      rw [h.walk_eq, hget]
      cases node with
      | directory mode => exact (hdir mode rfl).elim
      | link path => exact (hlink path rfl).elim
      | _ => rfl

/-- The derivations are those of the walks that succeed. -/
theorem walk_eq_ok_iff :
    s.walk p links loc steps = .ok target ↔ Leads s p links loc steps target :=
  ⟨leads_of_walk, Leads.walk_eq⟩

namespace Leads

/-! ### Purposes -/

/-- A walk to make a file ends where a walk to use it does. -/
theorem use_of_make (h : Leads s .make links loc steps target) :
    Leads s .use links loc steps target := by
  induction h with
  | here hget => exact here hget
  | stay hstep _ ih => exact stay hstep ih
  | up _ ih => exact up ih
  | free h hget => exact free (h.again (by simp)) hget
  | directory h hget _ ih => exact directory (h.again (by simp)) hget ih
  | link h => cases h
  | follow _ h hget _ ih => exact follow (by simp) (h.again (by simp)) hget ih
  | node h hget hdir hlink => exact node (h.again (by simp)) hget hdir hlink

/-- What can be used has a name. -/
theorem name_of_use (h : Leads s .use links loc steps target) :
    ∃ target', Leads s .name links loc steps target' := by
  induction h with
  | here hget => exact ⟨_, here hget⟩
  | stay hstep _ ih =>
      obtain ⟨t, ht⟩ := ih
      exact ⟨t, stay hstep ht⟩
  | up _ ih =>
      obtain ⟨t, ht⟩ := ih
      exact ⟨t, up ht⟩
  | free h hget => exact ⟨_, free (h.again (by simp)) hget⟩
  | directory h hget _ ih =>
      obtain ⟨t, ht⟩ := ih
      exact ⟨t, directory (h.again (by simp)) hget ht⟩
  | link h => cases h
  | @follow links loc name rest _ path _ h hget _ ih =>
      obtain ⟨t, ht⟩ := ih
      -- at the end of the path the link itself is what has the name
      by_cases hrest : rest = []
      · subst hrest
        exact ⟨_, link rfl (h.again (by simp)) hget⟩
      · exact ⟨t, follow (by simp [hrest]) (h.again (by simp)) hget ht⟩
  | node h hget hdir hlink => exact ⟨_, node (h.again (by simp)) hget hdir hlink⟩

/-! ### Replacements -/

/-- A walk that comes to a step that stays goes on from where it is. -/
theorem at_stay {step : String} (hstep : step = "" ∨ step = ".")
    (h : Leads s p links loc (step :: rest) target) : Leads s p links loc rest target := by
  cases h with
  | stay _ h => exact h
  | up h => simp at hstep
  | free h | directory h | link _ h | follow _ h | node h => exact (h.isName.1 hstep).elim

/-- A walk that comes to a step up goes on from above. -/
theorem at_up (h : Leads s p links loc (".." :: rest) target) :
    Leads s p links loc.dropLast rest target := by
  cases h with
  | stay hstep _ => simp at hstep
  | up h => exact h
  | free h | directory h | link _ h | follow _ h | node h => exact (h.isName.2 rfl).elim

/-- A walk that comes to a file ends there. -/
theorem at_file {content : ByteArray} {mode : Nat} (hname : IsName name)
    (hget : s.get? (loc ++ [name]) = some (.file content mode))
    (h : Leads s p links loc (name :: rest) target) :
    target = .found (loc ++ [name]) (.file content mode) := by
  cases h <;> simp_all [IsName]

/-- A walk that comes to a directory goes on from it. -/
theorem at_directory {mode : Nat} (hname : IsName name)
    (hget : s.get? (loc ++ [name]) = some (.directory mode))
    (h : Leads s p links loc (name :: rest) target) :
    Leads s p links (loc ++ [name]) rest target := by
  cases h <;> simp_all [IsName]

/-- A walk that comes to a link, and does not ask for the link, follows it. -/
theorem at_link {path : Path} (hname : IsName name) (hp : ¬(rest = [] ∧ p = .name))
    (hget : s.get? (loc ++ [name]) = some (.link path))
    (h : Leads s p links loc (name :: rest) target) :
    ∃ k, links = k + 1 ∧
      Leads s p k (if path.isAbsolute then [] else loc) (path.steps ++ rest) target := by
  cases h <;> simp_all [IsName]

/-- **A walk that is repeated after a replacement ends at the new file.**  The second store has a
file where the first walk ended, and the nodes of the first store elsewhere, files that are gone
left aside. -/
theorem replaced {dest : Location} {content : ByteArray} {mode : Nat}
    (hpq : p = .name ∨ q ≠ .name) (hdest : s'.get? dest = some (.file content mode))
    (hsame : ∀ l, l ≠ dest → s'.get? l = s.get? l ∨ ∃ c m, s.get? l = some (.file c m))
    (h : Leads s p links loc steps target) (hloc : target.location = dest)
    (h' : Leads s' q links loc steps target') :
    target' = .found dest (.file content mode) := by
  have hkept : ∀ {l node}, l ≠ dest → s.get? l = some node → (∀ c m, node ≠ .file c m) →
      s'.get? l = some node := by
    intro l node hl hget hnode
    rcases hsame l hl with hget' | ⟨c, m, hfile⟩
    · exact hget'.trans hget
    · exact (hnode c m (Option.some.inj (hget.symm.trans hfile))).elim
  -- as long as the first walk goes on, the second one goes the same way or has come to the file
  induction h with
  | here hget =>
      obtain rfl := hloc
      cases h' with
      | here hget' =>
          rw [Option.some.inj (hget'.symm.trans hdest)]
          rfl
  | stay hstep _ ih => exact ih hloc (at_stay hstep h')
  | up _ ih => exact ih hloc (at_up h')
  | free h hget =>
      obtain rfl := hloc
      exact at_file h.isName hdest h'
  | @directory _ loc name _ _ _ h hget _ ih =>
      by_cases hnext : loc ++ [name] = dest
      · subst hnext
        exact at_file h.isName hdest h'
      · exact ih hloc (at_directory h.isName (hkept hnext hget (by simp)) h')
  | link hp h hget =>
      obtain rfl := hloc
      exact at_file h.isName hdest h'
  | @follow _ loc name rest _ path hlast h hget _ ih =>
      by_cases hnext : loc ++ [name] = dest
      · subst hnext
        exact at_file h.isName hdest h'
      · have hlast' : ¬(rest = [] ∧ q = .name) := by
          rintro ⟨hrest, hq⟩
          exact hpq.elim (fun hp => hlast ⟨hrest, hp⟩) fun hne => hne hq
        obtain ⟨k, hk, hnext'⟩ := at_link h.isName hlast' (hkept hnext hget (by simp)) h'
        obtain rfl := Nat.succ.inj hk
        exact ih hloc hnext'
  | node h hget hdir hlink =>
      obtain rfl := hloc
      exact at_file h.isName hdest h'

end Leads

/-! ### Paths -/

variable {path : Path} {content : ByteArray} {mode : Nat} {node : Node}

theorem check_eq_ok (hzero : path.hasZero = false) (hempty : path.text ≠ "")
    (hshort : path.text.utf8ByteSize ≤ maxPath) : check path = .ok () := by
  simp [check, hzero, hempty, Nat.not_lt.2 hshort]

theorem check_eq_ok_iff :
    check path = .ok () ↔
      path.hasZero = false ∧ path.text ≠ "" ∧ path.text.utf8ByteSize ≤ maxPath := by
  constructor
  · intro h
    unfold check at h
    split at h
    · cases h
    split at h
    · cases h
    split at h
    · cases h
    rename_i hzero hempty hshort
    exact ⟨by simpa using hzero, hempty, Nat.not_lt.1 hshort⟩
  · rintro ⟨hzero, hempty, hshort⟩
    exact check_eq_ok hzero hempty hshort

theorem resolve_eq_ok_iff :
    s.resolve p path = .ok target ↔
      check path = .ok () ∧ Leads s p maxLinks (s.start path) path.steps target := by
  rw [resolve, ← walk_eq_ok_iff]
  cases check path <;> simp [bind, Except.bind]

theorem resolveName_eq_ok_iff :
    s.resolveName path = .ok target ↔
      check path = .ok () ∧ Leads s .name maxLinks (s.start path) path.names target := by
  rw [resolveName, ← walk_eq_ok_iff]
  cases check path <;> simp [bind, Except.bind]

theorem node_eq_ok_iff :
    s.node path = .ok (loc, node) ↔ s.resolve .use path = .ok (.found loc node) := by
  rw [Store.node]
  cases s.resolve .use path with
  | error e => simp [bind, Except.bind]
  | ok target => cases target <;> simp [bind, Except.bind]

/-- Where a path leads for the making of a file it leads for any use. -/
theorem resolve_use_of_make (h : s.resolve .make path = .ok target) :
    s.resolve .use path = .ok target := by
  rw [resolve_eq_ok_iff] at h ⊢
  exact ⟨h.1, h.2.use_of_make⟩

/-- What a path leads to for the making of a file it leads to for any use. -/
theorem node_of_resolve_make (h : s.resolve .make path = .ok (.found loc node)) :
    s.node path = .ok (loc, node) :=
  node_eq_ok_iff.2 (resolve_use_of_make h)

/-- A path along which a file was made leads to this file, unless it leads nowhere. -/
theorem node_of_made (h : s.resolve .make path = .ok target)
    (hnode : (s.put target.location (.file content mode)).node path = .ok (loc, node)) :
    loc = target.location ∧ node = .file content mode := by
  rw [resolve_eq_ok_iff] at h
  rw [node_eq_ok_iff, resolve_eq_ok_iff] at hnode
  have hdest : (s.put target.location (.file content mode)).get? target.location =
      some (.file content mode) := by simp
  have hsame : ∀ l, l ≠ target.location →
      (s.put target.location (.file content mode)).get? l = s.get? l ∨
        ∃ c m, s.get? l = some (.file c m) := by
    intro l hl
    exact .inl (by simp [Ne.symm hl])
  exact Target.found.inj (Leads.replaced (.inr (by simp)) hdest hsame h.2 rfl hnode.2)

theorem Path.steps_of_not_endsWithSlash (h : path.endsWithSlash = false) :
    path.steps = path.names := by
  simp [Path.steps, h]

/-- A path that named a place for a file leads to the file that was moved there, and names it,
unless it leads nowhere.  Where the file comes from there may be nothing left. -/
theorem node_of_moved {loc₀ : Location} {content₀ : ByteArray} {mode₀ : Nat}
    (hends : path.endsWithSlash = false)
    (h : (s.put loc₀ (.file content₀ mode₀)).resolveName path = .ok target)
    (hnode : (s.put target.location (.file content mode)).node path = .ok (loc, node)) :
    (loc = target.location ∧ node = .file content mode) ∧
      (s.put target.location (.file content mode)).resolveName path =
        .ok (.found target.location (.file content mode)) := by
  rw [resolveName_eq_ok_iff] at h
  rw [node_eq_ok_iff, resolve_eq_ok_iff, Path.steps_of_not_endsWithSlash hends] at hnode
  have hdest : (s.put target.location (.file content mode)).get? target.location =
      some (.file content mode) := by simp
  have hsame : ∀ l, l ≠ target.location →
      (s.put target.location (.file content mode)).get? l =
          (s.put loc₀ (.file content₀ mode₀)).get? l ∨
        ∃ c m, (s.put loc₀ (.file content₀ mode₀)).get? l = some (.file c m) := by
    intro l hl
    by_cases hmoved : loc₀ = l
    · exact .inr ⟨content₀, mode₀, by simp [hmoved]⟩
    · exact .inl (by simp [hmoved, Ne.symm hl])
  obtain ⟨named, hnamed⟩ := hnode.2.name_of_use
  obtain rfl := Leads.replaced (.inl rfl) hdest hsame h.2 rfl hnamed
  exact ⟨Target.found.inj (Leads.replaced (.inl rfl) hdest hsame h.2 rfl hnode.2),
    resolveName_eq_ok_iff.2 ⟨hnode.1, hnamed⟩⟩

/-- A path whose size can be asked for leads to a node. -/
theorem node_of_size {k : Nat} (h : s.size path = .ok k) :
    ∃ loc node, s.node path = .ok (loc, node) := by
  rw [size] at h
  cases hnode : s.node path with
  | error e =>
      rw [hnode] at h
      cases h
  | ok found => exact ⟨found.1, found.2, rfl⟩

theorem size_of_node (h : s.node path = .ok (loc, .file content mode)) :
    s.size path = .ok content.size := by
  rw [size, h]
  rfl

theorem content_of_node (h : s.node path = .ok (loc, .file content mode)) :
    s.content path = .ok content := by
  rw [Store.content, h]

/-- A plain name leads to the file that is there. -/
theorem node_of_name (hcheck : check path = .ok ()) (hsteps : path.steps = [name])
    (henters : Enters .use name [])
    (hget : s.get? (s.start path ++ [name]) = some (.file content mode)) :
    s.node path = .ok (s.start path ++ [name], .file content mode) := by
  rw [node_eq_ok_iff, resolve_eq_ok_iff, hsteps]
  exact ⟨hcheck, .node henters hget (by simp) (by simp)⟩

end Store

end Roster
