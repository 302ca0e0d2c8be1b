/-
**The loops over the entries of an array or object.**

`Roster.Json.foldEntries` reads entries up to a closing bracket and feeds each of them to a state.
Which entries it reads, and with which fault it stops, does not depend on that state.  So a loop
that keeps a state of its own, such as the verifier, and the loop that only collects the entries
see the same entries, and the state of the former is a fold over the list of the latter.

Main definitions:

* `Roster.Json.entries` — the entries that a loop reads, as a list, and how it ends;
* `Roster.Json.IsArrayTail` — the text behind the opening bracket of an array;
* `Roster.Json.Ends` — what may follow a value without being taken for a part of it;
* `Roster.Json.Reads` — a reader takes a text for a value and leaves what follows;
* `Roster.Json.joined` — texts with a separator between them.

Main results:

* `Roster.Json.foldEntries_of_finished`, `Roster.Json.foldEntries_of_entry`,
  `Roster.Json.foldEntries_of_fault` — the equations of a loop that ends, goes on and stops;
* `Roster.Json.foldEntries_fusion` — a map that commutes with the steps commutes with the loop;
* `Roster.Json.foldEntries_eq` — **every loop is a fold over the entries**;
* `Roster.Json.parse_array_iff` — what a text that is one array looks like;
* `Roster.Json.foldEntries_joined` — **a loop undoes the joining of texts**.
-/

import Roster.Json.Reader

set_option relaxedAutoImplicit false
set_option autoImplicit false

namespace Roster.Json

section

variable {α σ τ : Type} {next : Bool → Bytes → Except Fault Next}
  {bound : ∀ {first : Bool} {s : Bytes} {n : Next},
    next first s = .ok n → n.rest.length ≤ s.length}
  {entry : Reader α} {step : σ → α → σ} {first : Bool} {s t rest : Bytes} {a : α}

/-! ### Equations -/

/-- The closing bracket ends a loop. -/
theorem foldEntries_of_finished (h : next first s = .ok (.finished rest)) (acc : σ) :
    foldEntries next bound entry step first acc s = (acc, .ok rest) := by
  rw [foldEntries]
  split
  · rename_i hn
    cases h.symm.trans hn
  · rename_i hn
    cases h.symm.trans hn
    rfl
  · rename_i hn
    cases h.symm.trans hn

/-- An entry is fed to the state, and the loop goes on after it. -/
theorem foldEntries_of_entry (h : next first s = .ok (.entry t))
    (he : entry.run t = .ok (a, rest)) (acc : σ) :
    foldEntries next bound entry step first acc s =
      foldEntries next bound entry step false (step acc a) rest := by
  rw [foldEntries]
  split
  · rename_i hn
    cases h.symm.trans hn
  · rename_i hn
    cases h.symm.trans hn
  · rename_i hn
    cases h.symm.trans hn
    split
    · rename_i hr
      cases he.symm.trans hr
    · rename_i hr
      cases he.symm.trans hr
      rfl

/-- A loop stops at an entry that is refused. -/
theorem foldEntries_of_fault (h : next first s = .ok (.entry t)) {e : Fault}
    (he : entry.run t = .error e) (acc : σ) :
    foldEntries next bound entry step first acc s = (acc, .error e) := by
  rw [foldEntries]
  split
  · rename_i hn
    cases h.symm.trans hn
  · rename_i hn
    cases h.symm.trans hn
  · rename_i hn
    cases h.symm.trans hn
    split
    · rename_i hr
      cases he.symm.trans hr
      rfl
    · rename_i hr
      cases he.symm.trans hr

/-! ### The state does not matter -/

variable (next) (bound) (entry) in
/-- A map that commutes with the steps commutes with the loop. -/
theorem foldEntries_fusion {step' : τ → α → τ} (f : σ → τ)
    (hf : ∀ acc a, f (step acc a) = step' (f acc) a) (first : Bool) (acc : σ) (s : Bytes) :
    foldEntries next bound entry step' first (f acc) s =
      (f (foldEntries next bound entry step first acc s).1,
        (foldEntries next bound entry step first acc s).2) := by
  fun_induction foldEntries next bound entry step first acc s with
  | case1 first acc s e hn =>
      rw [foldEntries]
      split <;> simp_all
  | case2 first acc s rest hn => exact foldEntries_of_finished hn (f acc)
  | case3 first acc s t hn e he =>
      rw [foldEntries]
      split <;> simp_all
      split <;> simp_all
  | case4 first acc s t hn a rest he ih =>
      rw [foldEntries_of_entry hn he, ← hf]
      exact ih

/-- The entries that a loop reads, in their order, and the rest of the input or the fault that
ends it. -/
def entries (next : Bool → Bytes → Except Fault Next)
    (bound : ∀ {first : Bool} {s : Bytes} {n : Next},
      next first s = .ok n → n.rest.length ≤ s.length)
    (entry : Reader α) (first : Bool) (s : Bytes) : List α × Except Fault Bytes :=
  let r := foldEntries next bound entry (fun l a => a :: l) first [] s
  (r.1.reverse, r.2)

/-- **Every loop is a fold over the entries.** -/
theorem foldEntries_eq (step : σ → α → σ) (first : Bool) (acc : σ) (s : Bytes) :
    foldEntries next bound entry step first acc s =
      ((entries next bound entry first s).1.foldl step acc,
        (entries next bound entry first s).2) := by
  have h := foldEntries_fusion next bound entry (fun l : List α => l.reverse.foldl step acc)
    (fun l a => show (a :: l).reverse.foldl step acc = step (l.reverse.foldl step acc) a by simp)
    first [] s
  simpa [entries] using h

end

/-- The items of an array whose opening bracket has been read. -/
def items {α : Type} (item : Reader α) (s : Bytes) : List α × Except Fault Bytes :=
  entries nextItem nextItem_length item true s

theorem foldItems_eq {α σ : Type} (item : Reader α) (step : σ → α → σ) (acc : σ) (s : Bytes) :
    foldItems item step acc s = ((items item s).1.foldl step acc, (items item s).2) :=
  foldEntries_eq step true acc s

/-! ### Whole arrays -/

/-- The text behind the opening bracket of an array: its items, and nothing after its end. -/
def IsArrayTail (rest : Bytes) (vs : List Value) : Prop :=
  (items (value (maxDepth - 1)) rest).1 = vs ∧
    ∃ tail, (items (value (maxDepth - 1)) rest).2 = .ok tail ∧ readEnd tail = .ok ()

/-- Only a bracket begins the text of an array. -/
theorem readValue_eq_array {inner : Reader Value} {s tail : Bytes} {vs : List Value}
    (h : readValue (some inner) s = .ok (.array vs, tail)) :
    ∃ rest, skipBlank s = 0x5b :: rest ∧ items inner rest = (vs, .ok tail) := by
  unfold readValue at h
  split at h
  · cases h
  rename_i b rest hs
  -- a word, a number or a string is no array
  have hword : ∀ {word : Bytes} {v : Value}, readWordValue word v rest = .ok (.array vs, tail) →
      v = .array vs := by
    intro word v hw
    unfold readWordValue at hw
    split at hw <;> cases hw
    rfl
  split at h
  · cases hword h
  split at h
  · cases hword h
  split at h
  · cases hword h
  split at h
  · split at h <;> cases h
  split at h
  · split at h <;> cases h
  split at h
  · split at h <;> cases h
  split at h
  · rename_i hb
    refine ⟨rest, by rw [hs, hb], ?_⟩
    simp only [readArray, foldItems_eq] at h
    cases hitems : items inner rest with
    | mk found result =>
        rw [hitems] at h
        cases result with
        | error e => simp at h
        | ok tail' =>
            simp only [Except.ok.injEq, Prod.mk.injEq, Value.array.injEq] at h
            obtain ⟨hvs, rfl⟩ := h
            simpa using hvs
  split at h
  · -- an object is no array either
    simp only [readObject] at h
    split at h <;> cases h
  · cases h

/-- What a text that is one array looks like: blanks, a bracket, and the items up to the end. -/
theorem parse_array_iff (s : Bytes) (vs : List Value) :
    parse s = .ok (.array vs) ↔ ∃ rest, skipBlank s = 0x5b :: rest ∧ IsArrayTail rest vs := by
  have hrun : (value maxDepth).run s = readValue (some (value (maxDepth - 1))) s := rfl
  constructor
  · intro h
    rw [parse, hrun] at h
    split at h
    · cases h
    rename_i v tail hv
    split at h
    · cases h
    rename_i hend
    obtain rfl := Except.ok.inj h
    obtain ⟨rest, hs, hitems⟩ := readValue_eq_array hv
    exact ⟨rest, hs, by rw [hitems], tail, by rw [hitems], hend⟩
  · rintro ⟨rest, hs, rfl, tail, htail, hend⟩
    have hdigit : isDigit 0x5b = false := by decide
    simp [parse, hrun, readValue, hs, hdigit, readArray, foldItems_eq, htail, hend]

/-! ### Joined texts -/

/-- What may follow a value: nothing, or a byte that does not go on with a number. -/
def Ends : Bytes → Prop
  | [] => True
  | b :: _ => isDigit b = false ∧ b ≠ 0x2e ∧ b ≠ 0x65 ∧ b ≠ 0x45

/-- A reader takes a text for a value and leaves what follows. -/
def Reads {α : Type} (r : Reader α) (text : Bytes) (a : α) : Prop :=
  ∀ rest, Ends rest → r.run (text ++ rest) = .ok (a, rest)

/-- Texts with a separator between them, and before the first as well if it is not `first`. -/
def joined (sep : Bytes) (first : Bool) : List Bytes → Bytes
  | [] => []
  | t :: ts => (if first then [] else sep) ++ t ++ joined sep false ts

theorem joined_false (sep : Bytes) (ts : List Bytes) :
    joined sep false ts = ts.flatMap (sep ++ ·) := by
  induction ts with
  | nil => rfl
  | cons t ts ih => simp [joined, ih]

/-- Joining from the first text on puts the separators between the texts. -/
theorem joined_true (sep : Bytes) (ts : List Bytes) : joined sep true ts = sep.intercalate ts := by
  cases ts with
  | nil => rfl
  | cons t ts =>
      simp only [joined, if_true, List.nil_append, joined_false]
      induction ts generalizing t with
      | nil => simp [List.intercalate]
      | cons u ts ih =>
          have h := ih u
          simp only [List.intercalate] at h
          simp [List.intercalate, h]

/-- How a loop finds the entries of a text: `sep` stands between them and `close` at the end, and
`starts` says which texts an entry may have. -/
structure Separated (next : Bool → Bytes → Except Fault Next) (sep : Bytes) (close : UInt8)
    (starts : Bytes → Prop) : Prop where
  /-- The first entry comes at once. -/
  first : ∀ {text : Bytes}, starts text → ∀ tail,
    next true (text ++ tail) = .ok (.entry (text ++ tail))
  /-- Every other one comes after a separator. -/
  later : ∀ {text : Bytes}, starts text → ∀ tail,
    next false (sep ++ text ++ tail) = .ok (.entry (text ++ tail))
  /-- The closing bracket ends the loop. -/
  finish : ∀ first rest, next first (close :: rest) = .ok (.finished rest)
  /-- A separator may follow a value. -/
  ends_sep : ∀ tail, Ends (sep ++ tail)
  /-- The closing bracket may follow a value. -/
  ends_close : ∀ tail, Ends (close :: tail)

section

variable {α σ : Type} {next : Bool → Bytes → Except Fault Next}
  {bound : ∀ {first : Bool} {s : Bytes} {n : Next},
    next first s = .ok n → n.rest.length ≤ s.length}
  {sep : Bytes} {close : UInt8} {starts : Bytes → Prop}

/-- What follows an entry may follow a value. -/
theorem Separated.ends_joined (h : Separated next sep close starts) (ts : List Bytes)
    (rest : Bytes) : Ends (joined sep false ts ++ close :: rest) := by
  cases ts with
  | nil => exact h.ends_close rest
  | cons t ts =>
      simp only [joined, Bool.false_eq_true, if_false, List.append_assoc]
      exact h.ends_sep _

variable (bound) in
/-- **A loop undoes the joining of texts**: it reads the entries that the texts stand for, and
stops behind the closing bracket. -/
theorem foldEntries_joined (h : Separated next sep close starts) (entry : Reader α)
    (step : σ → α → σ) (xs : List (Bytes × α))
    (hxs : ∀ x ∈ xs, starts x.1 ∧ Reads entry x.1 x.2) (first : Bool) (acc : σ) (rest : Bytes) :
    foldEntries next bound entry step first acc
        (joined sep first (xs.map Prod.fst) ++ close :: rest) =
      ((xs.map Prod.snd).foldl step acc, .ok rest) := by
  -- every entry but the first one comes after a separator, which is what `first` keeps track of
  induction xs generalizing first acc with
  | nil => exact foldEntries_of_finished (h.finish first rest) acc
  | cons x xs ih =>
      obtain ⟨text, a⟩ := x
      obtain ⟨hs, hr⟩ := hxs (text, a) List.mem_cons_self
      have hread := hr _ (h.ends_joined (xs.map Prod.fst) rest)
      have hnext : next first (joined sep first (text :: xs.map Prod.fst) ++ close :: rest) =
          .ok (.entry (text ++ (joined sep false (xs.map Prod.fst) ++ close :: rest))) := by
        cases first with
        | true => simpa [joined] using h.first hs _
        | false => simpa [joined] using h.later hs _
      simp only [List.map_cons, List.foldl_cons]
      rw [foldEntries_of_entry hnext hread]
      exact ih (fun x hx => hxs x (List.mem_cons_of_mem _ hx)) false (step acc a)

end

end Roster.Json
