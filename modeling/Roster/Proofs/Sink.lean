/-
**Putting pieces into a sink.**

A text reaches a sink in pieces, and a failure can come within any of them.  Where the pieces are
cut makes no difference: a sink with a bounded room takes the whole text if there is room for it,
and otherwise the part that fits, as if the text had been put in one piece.

Of other sinks less is known.  What is common to them is said once: as long as nothing fails all of
the text so far has been put, and after a failure the text cannot have been put, nor any longer
one (`Roster.Fills`).  Programs that put text piece by piece inherit this.

Main definitions:

* `Roster.Outcome` — what is known of a run that may fail;
* `Roster.Fills` — a way of putting text that goes on or is cut off.

Main results:

* `Roster.Sink.take_append` — taking two texts is taking them together;
* `Roster.Sink.run_putAll` — **pieces are put as their text is**;
* `Roster.Fills.putAll` — pieces go on or are cut off as their text is.
-/

import Roster.Sink

set_option relaxedAutoImplicit false
set_option autoImplicit false

namespace Roster

/-! ### Programs with a state -/

section

variable {σ α β : Type}

theorem run_pure (a : α) (s : σ) : (pure a : StateM σ α).run s = (a, s) := rfl

theorem run_bind (x : StateM σ α) (f : α → StateM σ β) (s : σ) :
    (x >>= f).run s = (f (x.run s).1).run (x.run s).2 := rfl

end

section

variable {σ ε δ α β : Type}

/-- What is known of a run that may fail: of its result and the state after a success, and of its
failure and the state after that. -/
inductive Outcome (done : α → σ → Prop) (failed : ε → σ → Prop) : Except ε α × σ → Prop where
  /-- A success. -/
  | ok {a : α} {s : σ} : done a s → Outcome done failed (.ok a, s)
  /-- A failure. -/
  | error {e : ε} {s : σ} : failed e s → Outcome done failed (.error e, s)

/-- Of a run in two parts is known what is known of its second part, after either outcome of the
first. -/
theorem Outcome.bind {x : StateM σ (Except ε α)} {f : Except ε α → StateM σ (Except δ β)} {s : σ}
    {done : α → σ → Prop} {failed : ε → σ → Prop} {done' : β → σ → Prop} {failed' : δ → σ → Prop}
    (hx : Outcome done failed (x.run s))
    (hdone : ∀ a s, done a s → Outcome done' failed' ((f (.ok a)).run s))
    (hfailed : ∀ e s, failed e s → Outcome done' failed' ((f (.error e)).run s)) :
    Outcome done' failed' ((x >>= f).run s) := by
  rw [run_bind]
  generalize x.run s = r at hx ⊢
  cases hx with
  | ok h => exact hdone _ _ h
  | error h => exact hfailed _ _ h

theorem Outcome.mono {done done' : α → σ → Prop} {failed failed' : ε → σ → Prop}
    {r : Except ε α × σ} (h : Outcome done failed r) (hdone : ∀ a s, done a s → done' a s)
    (hfailed : ∀ e s, failed e s → failed' e s) : Outcome done' failed' r := by
  cases h with
  | ok h => exact .ok (hdone _ _ h)
  | error h => exact .error (hfailed _ _ h)

/-- A run succeeds exactly under a condition that holds after a success and not after a failure. -/
theorem Outcome.ok_iff {done : α → σ → Prop} {failed : ε → σ → Prop} {r : Except ε α × σ}
    {condition : Prop} (h : Outcome done failed r) (hdone : ∀ a s, done a s → condition)
    (hfailed : ∀ e s, failed e s → ¬condition) : (∃ a s, r = (.ok a, s)) ↔ condition := by
  cases h with
  | ok h => exact ⟨fun _ => hdone _ _ h, fun _ => ⟨_, _, rfl⟩⟩
  | error h =>
      constructor
      · rintro ⟨a, s, heq⟩
        cases heq
      · intro hc
        exact (hfailed _ _ h hc).elim

end

/-! ### Putting text -/

section

variable {σ ε ω : Type} {put : σ → Bytes → StateM ω (Except ε σ)}
  {done : Bytes → σ → ω → Prop} {cut : Bytes → ε → ω → Prop}

/-- A way of putting text that goes on or is cut off: `done` says of a sink that all of a text has
been put, and `cut` that it was too much, which then is also true of a longer one. -/
structure Fills (put : σ → Bytes → StateM ω (Except ε σ)) (done : Bytes → σ → ω → Prop)
    (cut : Bytes → ε → ω → Prop) : Prop where
  /-- Putting goes on or is cut off. -/
  put : ∀ {text s w} b, done text s w →
    Outcome (done (text ++ b)) (cut (text ++ b)) ((put s b).run w)
  /-- Where a text was cut off a longer one is. -/
  longer : ∀ {text e w} b, cut text e w → cut (text ++ b) e w

/-- Pieces go on or are cut off as their text is. -/
theorem Fills.putAll (h : Fills put done cut) {text : Bytes} {s : σ} {w : ω}
    (hdone : done text s w) (bs : List Bytes) :
    Outcome (done (text ++ bs.flatten)) (cut (text ++ bs.flatten)) ((putAll put s bs).run w) := by
  induction bs generalizing text s w with
  | nil =>
      rw [Roster.putAll, run_pure, List.flatten_nil, List.append_nil]
      exact .ok hdone
  | cons b bs ih =>
      rw [Roster.putAll, List.flatten_cons, ← List.append_assoc]
      refine (h.put b hdone).bind ?_ ?_
      · intro s' w' hdone'
        exact ih hdone'
      · intro e w' hcut
        exact .error (h.longer _ hcut)

end

/-! ### Bounded sinks -/

namespace Sink

variable {s : Sink} {a b : Bytes}

theorem ext_bytes {s s' : Sink} (hbytes : s.bytes = s'.bytes) (hroom : s.room = s'.room) :
    s = s' := by
  cases s
  cases s'
  simp only [bytes, Sink.mk.injEq] at *
  exact ⟨ByteArray.ext (Array.toList_inj.1 hbytes), hroom⟩

@[simp] theorem bytes_take (s : Sink) (b : Bytes) : (s.take b).bytes = s.bytes ++ s.fitting b := by
  simp [bytes, take, ByteArray.data_append, List.data_toByteArray]

@[simp] theorem room_take (s : Sink) (b : Bytes) :
    (s.take b).room = s.room.map (· - b.length) := rfl

@[simp] theorem take_nil (s : Sink) : s.take [] = s := by
  refine ext_bytes ?_ ?_
  · cases hr : s.room <;> simp [fitting, hr]
  · cases hr : s.room <;> simp [hr]

/-- Taking two texts is taking them together. -/
theorem take_append (s : Sink) (a b : Bytes) : (s.take a).take b = s.take (a ++ b) := by
  refine ext_bytes ?_ ?_
  · cases hr : s.room <;> simp [fitting, hr, List.take_append]
  · cases hr : s.room with
    | none => simp [hr]
    | some k =>
        simp only [room_take, hr, Option.map_some, List.length_append, Option.some.injEq]
        omega

/-- Putting succeeds exactly if there is room for all of the bytes. -/
theorem put_ok_iff (s : Sink) (b : Bytes) :
    ((put b).run s).1 = .ok () ↔ s.fitting b = b := by
  have h : ((put b).run s).1 = if s.hasRoom b.length then .ok () else .error () := rfl
  rw [h]
  cases hr : s.room with
  | none => simp [hasRoom, fitting, hr]
  | some k =>
      by_cases hk : b.length ≤ k
      · simp [hasRoom, fitting, hr, hk, List.take_of_length_le hk]
      · have : b.take k ≠ b := fun hb => by
          have := congrArg List.length hb
          simp only [List.length_take] at this
          omega
        simp [hasRoom, fitting, hr, hk, this]

/-- There is room for two texts if there is room for the first, and then for the second. -/
theorem hasRoom_append (h : s.hasRoom a.length = true) (n : Nat) :
    (s.take a).hasRoom n = s.hasRoom (a.length + n) := by
  cases hr : s.room with
  | none => simp [hasRoom, hr]
  | some k =>
      have hk : a.length ≤ k := by simpa [hasRoom, hr] using h
      simp only [hasRoom, room_take, hr, Option.map_some, decide_eq_decide]
      omega

/-- Where there is no room for a text there is none for a longer one, and the longer one leaves
the sink as the text does. -/
theorem take_append_of_not_hasRoom (h : s.hasRoom a.length = false) (b : Bytes) :
    s.hasRoom (a ++ b).length = false ∧ s.take (a ++ b) = s.take a := by
  cases hr : s.room with
  | none => simp [hasRoom, hr] at h
  | some k =>
      have hk : k < a.length := by simpa [hasRoom, hr] using h
      refine ⟨?_, ext_bytes ?_ ?_⟩
      · simp only [hasRoom, hr, List.length_append, decide_eq_false_iff_not]
        omega
      · simp [fitting, hr, List.take_append_of_le_length (Nat.le_of_lt hk)]
      · simp only [room_take, hr, Option.map_some, List.length_append, Option.some.injEq]
        omega

/-- Putting into a sink that is the state of the program. -/
def putting (_ : Unit) (b : Bytes) : StateM Sink (Except Unit Unit) := put b

theorem run_putting (b : Bytes) (s : Sink) :
    (putting () b).run s = (if s.hasRoom b.length then .ok () else .error (), s.take b) := rfl

/-- **Pieces are put as their text is**: all of it if there is room, and else the part that
fits. -/
theorem run_putAll (bs : List Bytes) (s : Sink) :
    (putAll putting () bs).run s =
      (if s.hasRoom bs.flatten.length then .ok () else .error (), s.take bs.flatten) := by
  induction bs generalizing s with
  | nil =>
      have h : s.hasRoom 0 = true := by cases hr : s.room <;> simp [hasRoom, hr]
      rw [putAll, run_pure]
      simp [h]
  | cons b bs ih =>
      rw [putAll, run_bind, run_putting, List.flatten_cons]
      by_cases h : s.hasRoom b.length = true
      · simp only [h, if_true, ih, hasRoom_append h, take_append, List.length_append]
      · have hfalse : s.hasRoom b.length = false := by simpa using h
        obtain ⟨hroom, htake⟩ := take_append_of_not_hasRoom hfalse bs.flatten
        simp only [hfalse, Bool.false_eq_true, if_false, run_pure, hroom, htake]

end Sink

end Roster
