/-
**A writer over a sink that may be full.**

The sink of a writer may run full at any byte and may be given room again later.  An element that
does not fit leaves a part of its text behind, and the writer goes on as if nothing had been
written: it does not count the element, so a later one may again come without a comma.

A run of a writer is recorded call by call.  What holds of one call, given how many elements have
been written before it, is said once (`Roster.WriteEvent.Lawful`); a record in which every call is
lawful and finds the number that the calls before it have left (`Roster.Recorded`) is what every
run produces, by induction on the calls.  Everything else is read off such a record.

Main definitions:

* `Roster.WriterCall` — an element to write, or new room for the sink;
* `Roster.WriteEvent` — what was seen of the writing of one element;
* `Roster.runCalls` — **a run of the writer**, with its record;
* `Roster.WriteEvent.Lawful`, `Roster.Recorded` — what such a record looks like.

Main results:

* `Roster.run_element` — one element is put as its text is;
* `Roster.runCalls_leaves` — every run has a lawful record;
* `Roster.writer_law` — **the law of a whole run**.
-/

import Roster.Dataset.Writer
import Roster.Proofs.Json.Entries
import Roster.Proofs.Sink

set_option relaxedAutoImplicit false
set_option autoImplicit false

namespace Roster

open Json

/-! ### Runs -/

/-- What is done with a writer between its opening and its closing bracket. -/
inductive WriterCall where
  /-- An element is written. -/
  | element (v : Value)
  /-- The sink is given so much room from now on. -/
  | refill (room : Option Nat)

/-- What was seen of the writing of one element. -/
structure WriteEvent where
  /-- The element. -/
  value : Value
  /-- The room of the sink before the call. -/
  room : Option Nat
  /-- The number of elements written before the call. -/
  written : Nat
  /-- The call succeeded. -/
  ok : Bool
  /-- The bytes that the sink has taken during the call. -/
  chunk : Bytes

/-- The elements among some calls. -/
def elementsOf : List WriterCall → List Value
  | [] => []
  | .element v :: rest => v :: elementsOf rest
  | .refill _ :: rest => elementsOf rest

/-- Writes an element, and records what was seen of it.  After a failure the writer is the one
before. -/
def observe (w : ArrayWriter Unit) (v : Value) :
    StateM Sink (WriteEvent × ArrayWriter Unit) := do
  let before ← get
  let result ← w.element Sink.putting v
  let after ← get
  let event (ok : Bool) : WriteEvent :=
    { value := v, room := before.room, written := w.written, ok
      chunk := after.bytes.drop before.bytes.length }
  match result with
  | .ok w => pure (event true, w)
  | .error () => pure (event false, w)

/-- **A run of the writer**: the calls one after the other, with a record of those that write an
element. -/
def runCalls (w : ArrayWriter Unit) :
    List WriterCall → StateM Sink (List WriteEvent × ArrayWriter Unit)
  | [] => pure ([], w)
  | .refill room :: rest => do
    modify fun s => { s with room }
    runCalls w rest
  | .element v :: rest => do
    let (event, w) ← observe w v
    let (events, w) ← runCalls w rest
    pure (event :: events, w)

/-! ### One element -/

/-- The text of an element: a comma before each but the first one that was written. -/
def elementText (style : Style) (written : Nat) (v : Value) : Bytes :=
  (if 0 < written then [0x2c] else []) ++ v.text style

theorem elementPieces_flatten (style : Style) (written : Nat) (v : Value) :
    (elementPieces style written v).flatten = elementText style written v := by
  rcases Nat.eq_zero_or_pos written with rfl | h
  · simp [elementPieces, elementText, Value.text]
  · have hne : written ≠ 0 := by omega
    simp [elementPieces, elementText, Value.text, h, hne]

/-- One element is put as its text is: all of it if there is room, and then it is counted. -/
theorem run_element (w : ArrayWriter Unit) (v : Value) (s : Sink) :
    (w.element Sink.putting v).run s =
      (if s.hasRoom (elementText w.style w.written v).length then
          .ok { w with written := w.written + 1 }
        else .error (),
        s.take (elementText w.style w.written v)) := by
  rw [ArrayWriter.element, run_bind, Sink.run_putAll, elementPieces_flatten]
  cases h : s.hasRoom (elementText w.style w.written v).length <;> rfl

/-- What holds of every call: it succeeds exactly if its text fits, and then the sink takes all of
the text; otherwise it takes as much as there is room for. -/
structure WriteEvent.Lawful (style : Style) (e : WriteEvent) : Prop where
  /-- It succeeds exactly if its text fits. -/
  ok_iff : e.ok = true ↔ ∀ k, e.room = some k → (elementText style e.written e.value).length ≤ k
  /-- After a success the sink has taken the text. -/
  chunk_of_ok : e.ok = true → e.chunk = elementText style e.written e.value
  /-- After a failure the sink has taken as much of the text as there was room for, which is not
  all of it. -/
  chunk_of_failed : e.ok = false → ∃ k, e.room = some k ∧
    k < (elementText style e.written e.value).length ∧
    e.chunk = (elementText style e.written e.value).take k

theorem hasRoom_iff (s : Sink) (n : Nat) :
    s.hasRoom n = true ↔ ∀ k, s.room = some k → n ≤ k := by
  cases hr : s.room <;> simp [Sink.hasRoom, hr]

/-- What is seen of the writing of an element into a sink. -/
def eventOf (w : ArrayWriter Unit) (v : Value) (s : Sink) : WriteEvent where
  value := v
  room := s.room
  written := w.written
  ok := s.hasRoom (elementText w.style w.written v).length
  chunk := s.fitting (elementText w.style w.written v)

/-- The writer after the writing of an element: it counts a success. -/
def counted (w : ArrayWriter Unit) (e : WriteEvent) : ArrayWriter Unit :=
  { w with written := w.written + if e.ok then 1 else 0 }

theorem run_observe (w : ArrayWriter Unit) (v : Value) (s : Sink) :
    (observe w v).run s =
      ((eventOf w v s, counted w (eventOf w v s)), s.take (elementText w.style w.written v)) := by
  have hget : (get : StateM Sink Sink).run = fun s => (s, s) := rfl
  rw [observe, run_bind, hget, run_bind, run_element, run_bind, hget]
  cases h : s.hasRoom (elementText w.style w.written v).length <;>
    simp only [h, eventOf, counted, run_pure, Sink.bytes_take, List.drop_left, if_true, if_false,
      Bool.false_eq_true, Nat.add_zero]

theorem lawful_eventOf (w : ArrayWriter Unit) (v : Value) (s : Sink) :
    (eventOf w v s).Lawful w.style where
  ok_iff := hasRoom_iff s _
  chunk_of_ok := by
    intro h
    have hroom := (hasRoom_iff s _).1 h
    cases hr : s.room with
    | none => simp [eventOf, Sink.fitting, hr]
    | some k => simp [eventOf, Sink.fitting, hr, List.take_of_length_le (hroom k hr)]
  chunk_of_failed := by
    intro h
    cases hr : s.room with
    | none => simp [eventOf, Sink.hasRoom, hr] at h
    | some k =>
        refine ⟨k, hr, by simpa [eventOf, Sink.hasRoom, hr] using h, ?_⟩
        simp [eventOf, Sink.fitting, hr]

/-! ### The record of a run -/

/-- In a record every call is lawful and finds the number of elements that the calls before it
have left, `written` of them having been written before the first. -/
def Recorded (style : Style) (written : Nat) : List WriteEvent → Prop
  | [] => True
  | e :: rest =>
    e.written = written ∧ e.Lawful style ∧
      Recorded style (written + if e.ok then 1 else 0) rest

/-- What a run leaves: a lawful record with one entry for each element, the number of elements
written, and the chunks in the sink. -/
structure RunLeaves (w : ArrayWriter Unit) (calls : List WriterCall) (s : Sink)
    (events : List WriteEvent) (w' : ArrayWriter Unit) (s' : Sink) : Prop where
  /-- The record is lawful. -/
  recorded : Recorded w.style w.written events
  /-- It has one entry for each element. -/
  values : events.map (·.value) = elementsOf calls
  /-- Each success has been counted. -/
  written : w'.written = w.written + events.countP (·.ok)
  /-- The sink has taken the chunks, one after the other. -/
  bytes : s'.bytes = s.bytes ++ events.flatMap (·.chunk)

/-- **Every run has a lawful record.** -/
theorem runCalls_leaves (calls : List WriterCall) (w : ArrayWriter Unit) (s : Sink) :
    RunLeaves w calls s ((runCalls w calls).run s).1.1 ((runCalls w calls).run s).1.2
      ((runCalls w calls).run s).2 := by
  -- induction on the calls; each of them may change both the writer and the sink
  induction calls generalizing w s with
  | nil => exact ⟨trivial, rfl, rfl, (List.append_nil _).symm⟩
  | cons call calls ih =>
      cases call with
      | refill room =>
          obtain ⟨hrec, hvalues, hwritten, hbytes⟩ := ih w { s with room }
          exact ⟨hrec, hvalues, hwritten, hbytes⟩
      | element v =>
          have hrun : (runCalls w (.element v :: calls)).run s =
              ((eventOf w v s ::
                  ((runCalls (counted w (eventOf w v s)) calls).run
                    (s.take (elementText w.style w.written v))).1.1,
                ((runCalls (counted w (eventOf w v s)) calls).run
                  (s.take (elementText w.style w.written v))).1.2),
                ((runCalls (counted w (eventOf w v s)) calls).run
                  (s.take (elementText w.style w.written v))).2) := by
            rw [runCalls, run_bind, run_observe, run_bind, run_pure]
          obtain ⟨hrec, hvalues, hwritten, hbytes⟩ :=
            ih (counted w (eventOf w v s)) (s.take (elementText w.style w.written v))
          rw [hrun]
          refine ⟨⟨rfl, lawful_eventOf w v s, hrec⟩, ?_, ?_, ?_⟩
          · rw [List.map_cons, hvalues]
            rfl
          · rw [hwritten, List.countP_cons]
            simp only [counted]
            omega
          · rw [hbytes, Sink.bytes_take, List.flatMap_cons, List.append_assoc]
            rfl

/-! ### What a record says -/

namespace Recorded

variable {style : Style} {written : Nat} {events : List WriteEvent}

/-- Every call of a record is lawful. -/
theorem lawful (h : Recorded style written events) : ∀ e ∈ events, e.Lawful style := by
  induction events generalizing written with
  | nil => simp
  | cons e events ih =>
      obtain ⟨-, he, hrest⟩ := h
      intro d hd
      rcases List.mem_cons.1 hd with rfl | hd
      · exact he
      · exact ih hrest d hd

/-- A call finds as many elements written as calls before it have succeeded. -/
theorem written_eq (h : Recorded style written events) (i : Nat) (hi : i < events.length) :
    events[i].written = written + (events.take i).countP (·.ok) := by
  induction events generalizing written i with
  | nil => simp at hi
  | cons e events ih =>
      obtain ⟨he, -, hrest⟩ := h
      cases i with
      | zero => simpa using he
      | succ i =>
          rw [List.getElem_cons_succ, ih hrest i (by simpa using hi), List.take_succ_cons,
            List.countP_cons]
          omega

/-- The texts of the elements that were written. -/
def texts (style : Style) (events : List WriteEvent) : List Bytes :=
  (events.filter (·.ok)).map (·.value.text style)

/-- The number of bytes that failed calls have left behind. -/
def waste (events : List WriteEvent) : Nat :=
  ((events.filter (!·.ok)).flatMap (·.chunk)).length

/-- The chunks are as long as the texts of the elements that were written, with their commas, and
what the failed calls have left. -/
theorem length_chunks (h : Recorded style written events) :
    (events.flatMap (·.chunk)).length =
      (joined [0x2c] (decide (written = 0)) (texts style events)).length + waste events := by
  induction events generalizing written with
  | nil => rfl
  | cons e events ih =>
      -- a failure adds its chunk to the waste, a success adds its text to those that are joined
      obtain ⟨hw, he, hrest⟩ := h
      have hlen := ih hrest
      cases hok : e.ok with
      | false =>
          simp only [hok, Bool.false_eq_true, if_false, Nat.add_zero] at hlen
          simp only [texts, waste, List.filter_cons, hok, Bool.false_eq_true, if_false,
            Bool.not_false, if_true, List.flatMap_cons, List.length_append] at hlen ⊢
          omega
      | true =>
          have hchunk := he.chunk_of_ok hok
          simp only [hok, if_true] at hlen
          simp only [texts, waste, List.filter_cons, hok, if_true, Bool.not_true,
            Bool.false_eq_true, if_false, List.flatMap_cons, List.length_append, List.map_cons,
            joined, hchunk, elementText, hw] at hlen ⊢
          by_cases hz : written = 0
          · simp only [hz] at hlen ⊢
            simp at hlen ⊢
            omega
          · have hpos : 0 < written := by omega
            simp [hz, hpos] at hlen ⊢
            omega

/-- If the failed calls have left nothing, the chunks are the texts of the elements that were
written, with a comma between them. -/
theorem chunks_eq (h : Recorded style written events)
    (hclean : ∀ e ∈ events, e.ok = false → e.chunk = []) :
    events.flatMap (·.chunk) = joined [0x2c] (decide (written = 0)) (texts style events) := by
  induction events generalizing written with
  | nil => rfl
  | cons e events ih =>
      obtain ⟨hw, he, hrest⟩ := h
      have hchunks := ih hrest fun d hd => hclean d (List.mem_cons_of_mem _ hd)
      cases hok : e.ok with
      | false =>
          have hnil := hclean e List.mem_cons_self hok
          simp only [hok, Bool.false_eq_true, if_false, Nat.add_zero] at hchunks
          simp [texts, hok, hnil, hchunks]
      | true =>
          have hchunk := he.chunk_of_ok hok
          simp only [hok, if_true] at hchunks
          rw [List.flatMap_cons, hchunk, hchunks]
          by_cases hz : written = 0
          · simp [texts, hok, joined, elementText, hw, hz]
          · have hpos : 0 < written := by omega
            simp [texts, hok, joined, elementText, hw, hz, hpos]

/-- Nothing is left behind exactly if no failed call has put anything. -/
theorem waste_eq_zero_iff (events : List WriteEvent) :
    waste events = 0 ↔ ∀ e ∈ events, e.ok = false → e.chunk = [] := by
  rw [waste, List.length_eq_zero_iff, List.flatMap_eq_nil_iff]
  simp

/-- The chunks are the texts of the elements that were written, with a comma between them, exactly
if no failed call has put anything. -/
theorem chunks_eq_iff (h : Recorded style 0 events) :
    events.flatMap (·.chunk) = [0x2c].intercalate (texts style events) ↔
      ∀ e ∈ events, e.ok = false → e.chunk = [] := by
  rw [← joined_true]
  constructor
  · -- the lengths leave no room for any waste
    intro heq
    have hlen := h.length_chunks
    have hfirst : decide (0 = 0) = true := rfl
    rw [heq, hfirst] at hlen
    exact (waste_eq_zero_iff events).1 (by omega)
  · intro hclean
    exact h.chunks_eq hclean

end Recorded

/-! ### The law of a whole run -/

/-- The opening bracket is put as its one byte is. -/
theorem run_begin (style : Style) (s : Sink) :
    (ArrayWriter.begin Sink.putting () style).run s =
      (if s.hasRoom 1 then .ok { sink := (), style } else .error (), s.take [0x5b]) := by
  rw [ArrayWriter.begin, run_bind, Sink.run_putting]
  cases s.hasRoom 1 <;> rfl

/-- A text that fits is put as a whole. -/
theorem bytes_take_of_hasRoom {s : Sink} {b : Bytes} (h : s.hasRoom b.length = true) :
    (s.take b).bytes = s.bytes ++ b := by
  have hfit := (Sink.put_ok_iff s b).1 (by simp [Sink.put, StateT.run, h])
  rw [Sink.bytes_take, hfit]

/-- **The law of a whole run.**  Beginning fails exactly if there is no room at all.  After any
calls the sink has taken the opening bracket and one chunk for each element, every call has been
lawful, and the number of elements written is that of the calls that succeeded.  If the closing
bracket can then be put, the sink has taken the elements that were written as one array exactly if
no failed call has put anything. -/
theorem writer_law (style : Style) (room : Option Nat) (calls : List WriterCall) :
    (((ArrayWriter.begin Sink.putting () style).run { room }).1 = .error () ↔ room = some 0) ∧
      ∀ w s, (ArrayWriter.begin Sink.putting () style).run { room } = (.ok w, s) →
        ∀ events w' s', (runCalls w calls).run s = ((events, w'), s') →
          s'.bytes = 0x5b :: events.flatMap (·.chunk) ∧
          events.map (·.value) = elementsOf calls ∧
          (∀ e ∈ events, e.Lawful style) ∧
          (∀ i (h : i < events.length), events[i].written = (events.take i).countP (·.ok)) ∧
          w'.written = events.countP (·.ok) ∧
          ∀ s'', (w'.finish Sink.putting).run s' = (.ok (), s'') →
            (s''.bytes = 0x5b :: ([0x2c].intercalate (Recorded.texts style events) ++ [0x5d]) ↔
              ∀ e ∈ events, e.ok = false → e.chunk = []) := by
  refine ⟨?_, ?_⟩
  · rw [run_begin]
    cases room with
    | none => simp [Sink.hasRoom]
    | some k => cases k <;> simp [Sink.hasRoom]
  · intro w s hbegin events w' s' hrun
    rw [run_begin] at hbegin
    cases hroom : ({ room } : Sink).hasRoom 1 with
    | false =>
        obtain ⟨hw, -⟩ := Prod.mk.inj hbegin
        simp [hroom] at hw
    | true =>
        obtain ⟨hw, rfl⟩ := Prod.mk.inj hbegin
        obtain rfl : { sink := (), style } = w := by simpa [hroom] using hw
        have hbracket : (({ room } : Sink).take [0x5b]).bytes = [0x5b] :=
          bytes_take_of_hasRoom hroom
        obtain ⟨hrec, hvalues, hwritten, hbytes⟩ :=
          runCalls_leaves calls { sink := (), style } (({ room } : Sink).take [0x5b])
        rw [hrun] at hrec hvalues hwritten hbytes
        rw [hbracket] at hbytes
        refine ⟨hbytes, hvalues, hrec.lawful, fun i hi => ?_, ?_, fun s'' hfinish => ?_⟩
        · rw [hrec.written_eq i hi, Nat.zero_add]
        · rw [hwritten, Nat.zero_add]
        · have hlast : s''.bytes = s'.bytes ++ [0x5d] := by
            rw [ArrayWriter.finish, Sink.run_putting] at hfinish
            obtain ⟨hok, rfl⟩ := Prod.mk.inj hfinish
            exact bytes_take_of_hasRoom (by simpa using hok)
          rw [hlast, hbytes, ← hrec.chunks_eq_iff]
          simp

/-- A failed call that has put something spoils the array: the one element that is written in full
is `true`, and the sink has taken `[nultrue]`. -/
theorem writer_law_spoiled :
    ∃ w s events w' s' s'',
      (ArrayWriter.begin Sink.putting () .compact).run { room := some 4 } = (.ok w, s) ∧
      (runCalls w [.element .null, .refill none, .element (.bool true)]).run s =
        ((events, w'), s') ∧
      (w'.finish Sink.putting).run s' = (.ok (), s'') ∧
      Recorded.texts .compact events = [(Value.bool true).text .compact] ∧
      s''.bytes ≠ 0x5b :: ([0x2c].intercalate (Recorded.texts .compact events) ++ [0x5d]) := by
  refine ⟨_, _, _, _, _, _, rfl, rfl, rfl, rfl, fun h => ?_⟩
  have hlaw := (writer_law .compact (some 4)
    [.element .null, .refill none, .element (.bool true)]).2 _ _ rfl _ _ _ rfl
  have hnil := (hlaw.2.2.2.2.2 _ rfl).1 h _ List.mem_cons_self rfl
  exact absurd hnil (by decide)

end Roster
