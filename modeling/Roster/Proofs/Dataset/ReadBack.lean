/-
**What a writer has written is read back.**

A writer puts an array bracket by bracket and element by element, and a reader takes it apart
again.  The text that a writer puts is the document of its values, into whatever it puts it; a sink
that is never full has then taken all of it.  Read as a whole text, the document gives the values
back in their order, provided that their objects are in the order in which a reader gives them.

Main definitions:

* `Roster.ArrayWriter.array` — a list of values written as one array.

Main results:

* `Roster.Fills.array` — an array goes on or is cut off as its document is;
* `Roster.Sink.fills` — a sink without a bound is never full;
* `Roster.array_read_back` — **an array that was written is read back**.
-/

import Roster.Proofs.Dataset.Document
import Roster.Proofs.Dataset.Populate
import Roster.Proofs.Json.Sorted

set_option relaxedAutoImplicit false
set_option autoImplicit false

namespace Roster

open Json

/-! ### Arrays -/

section

variable {m : Type → Type} [Monad m] {σ ε : Type}

/-- Writes elements one after the other, up to the first failure. -/
def ArrayWriter.elements (put : σ → Bytes → m (Except ε σ)) (aw : ArrayWriter σ) :
    List Value → m (Except ε (ArrayWriter σ))
  | [] => pure (.ok aw)
  | v :: vs => do
    match ← aw.element put v with
    | .error e => pure (.error e)
    | .ok aw => elements put aw vs

/-- Writes a list of values as one array: the opening bracket, the elements, the closing
bracket. -/
def ArrayWriter.array (put : σ → Bytes → m (Except ε σ)) (sink : σ) (style : Style)
    (vs : List Value) : m (Except ε σ) := do
  match ← ArrayWriter.begin put sink style with
  | .error e => pure (.error e)
  | .ok aw =>
    match ← aw.elements put vs with
    | .error e => pure (.error e)
    | .ok aw => aw.finish put

end

section

variable {σ ε ω : Type} {put : σ → Bytes → StateM ω (Except ε σ)}
  {done : Bytes → σ → ω → Prop} {cut : Bytes → ε → ω → Prop}

/-- Elements go on or are cut off as their texts are. -/
theorem Fills.elements (h : Fills put done cut) {style : Style} (vs : List Value) {text : Bytes}
    {written : Nat} {aw : ArrayWriter σ} {w : ω} (hwrote : Wrote done style text written aw w) :
    Outcome (Wrote done style (text ++ elementsText style written vs) (written + vs.length))
      (cut (text ++ elementsText style written vs)) ((aw.elements put vs).run w) := by
  induction vs generalizing text written aw w with
  | nil =>
      rw [ArrayWriter.elements, run_pure, elementsText, List.append_nil]
      exact .ok hwrote
  | cons v vs ih =>
      rw [ArrayWriter.elements, elementsText, ← List.append_assoc, List.length_cons,
        Nat.add_comm vs.length, ← Nat.add_assoc]
      refine (h.element hwrote v).bind ?_ ?_
      · intro aw' w' hwrote'
        exact ih hwrote'
      · intro e w' hcut
        exact .error (h.longer _ hcut)

/-- An array goes on or is cut off as its document is. -/
theorem Fills.array (h : Fills put done cut) {s : σ} {w : ω} (hdone : done [] s w) (style : Style)
    (vs : List Value) :
    Outcome (done (document style vs)) (cut (document style vs))
      ((ArrayWriter.array put s style vs).run w) := by
  have htext : document style vs = [0x5b] ++ elementsText style 0 vs ++ [0x5d] := rfl
  rw [htext, ArrayWriter.array]
  refine (h.begin hdone style).bind ?_ ?_
  · intro aw w' hwrote
    refine (h.elements vs hwrote).bind ?_ ?_
    · rintro aw' w'' ⟨-, -, hdone'⟩
      exact h.put [0x5d] hdone'
    · intro e w'' hcut
      exact .error (h.longer _ hcut)
  · intro e w' hcut
    exact .error (h.longer _ (h.longer _ hcut))

end

/-! ### A sink that is never full -/

/-- A sink without a bound is never full: it takes every text. -/
theorem Sink.fills :
    Fills Sink.putting (fun text _ s => s.room = none ∧ s.bytes = text) fun _ _ _ => False where
  put := by
    rintro text _ s b ⟨hroom, rfl⟩
    have hall : s.hasRoom b.length = true := by simp [hasRoom, hroom]
    rw [run_putting, if_pos hall]
    refine .ok ⟨?_, ?_⟩
    · rw [room_take, hroom]
      rfl
    · rw [bytes_take, fitting, hroom]
  longer := fun _ hno => hno

/-- Into a sink that is never full the document of the values is written. -/
theorem run_array (style : Style) (vs : List Value) :
    ∃ s, (ArrayWriter.array Sink.putting () style vs).run {} = (.ok (), s) ∧
      s.bytes = document style vs := by
  have houtcome := Sink.fills.array (s := ()) (w := {}) ⟨rfl, rfl⟩ style vs
  rcases hrun : (ArrayWriter.array Sink.putting () style vs).run {} with ⟨r, s⟩
  rw [hrun] at houtcome
  cases houtcome with
  | ok hdone => exact ⟨s, rfl, hdone.2⟩
  | error hno => exact hno.elim

/-! ### Reading back -/

/-- **An array that was written is read back.**  The values are within the limits of the reader,
one level of brackets being taken by the array itself, and their objects have their members in the
order of their keys. -/
theorem array_read_back (style : Style) {vs : List Value}
    (hreadable : ∀ v ∈ vs, Readable (maxDepth - 1) v) (hsorted : ∀ v ∈ vs, Sorted v) :
    ∃ s, (ArrayWriter.array Sink.putting () style vs).run {} = (.ok (), s) ∧
      parse s.bytes = .ok (.array vs) := by
  obtain ⟨s, hrun, hbytes⟩ := run_array style vs
  have hnormal : vs.map Value.normal = vs := by
    rw [List.map_congr_left fun v hv => (hsorted v hv).normal_eq, List.map_id']
  refine ⟨s, hrun, ?_⟩
  rw [hbytes, parse_document style hreadable, hnormal]

/-- An empty array within an object, beside a key with a quote in it, and the smallest integer. -/
theorem array_read_back_nested :
    ∃ s, (ArrayWriter.array Sink.putting () .spaced
        [.object [("a", .array []), ("b\"", .null)], .number (.integer (-9223372036854775808))]).run
          {} = (.ok (), s) ∧
      parse s.bytes = .ok (.array
        [.object [("a", .array []), ("b\"", .null)],
          .number (.integer (-9223372036854775808))]) := by
  refine array_read_back .spaced ?_ ?_
  · intro v hv
    simp only [List.mem_cons, List.not_mem_nil, or_false] at hv
    rcases hv with rfl | rfl
    · refine Readable.object fun m hm => ?_
      simp only [List.mem_cons, List.not_mem_nil, or_false] at hm
      rcases hm with rfl | rfl
      · exact Readable.array (by simp)
      · exact .null _
    · exact .integer _ (by decide) (by decide)
  · intro v hv
    simp only [List.mem_cons, List.not_mem_nil, or_false] at hv
    rcases hv with rfl | rfl
    · refine Sorted.object (by unfold SortedKeys; decide) fun m hm => ?_
      simp only [List.mem_cons, List.not_mem_nil, or_false] at hm
      rcases hm with rfl | rfl
      · exact .array (by simp)
      · exact .null
    · exact .number _

end Roster
