/-
**Sinks of bytes.**

Documents are written piece by piece into something that takes bytes: a file, a buffer before a
file, or a sink that has room for so many bytes and no more.  What is common to all of them is a
function that puts some bytes and either succeeds or says why it cannot; a failed one may have
put some of the bytes.

A buffer before a sink forgets nothing.  What was not taken when it had to pass its bytes on stays in
it, and when it is given up, after a failure or without one, what it holds is passed on once more.

Main definitions:

* `Roster.putAll` — pieces put one after the other, up to the first failure;
* `Roster.Sink` — a sink with a bounded room;
* `Roster.Stop` — a failure, and how far one had come;
* `Roster.Buffer` — a buffer, which passes its bytes on when the next ones do not fit;
* `Roster.Buffer.drop` — what happens to the bytes of a buffer that is given up.
-/

import Roster.Bytes

set_option relaxedAutoImplicit false
set_option autoImplicit false

namespace Roster

/-! ### Pieces -/

section

variable {m : Type → Type} [Monad m] {σ ε : Type}

/-- Puts pieces one after the other, up to the first failure. -/
@[specialize] def putAll (put : σ → Bytes → m (Except ε σ)) (s : σ) :
    List Bytes → m (Except ε σ)
  | [] => pure (.ok s)
  | b :: rest => do
    match ← put s b with
    | .error e => pure (.error e)
    | .ok s => putAll put s rest

end

/-! ### Bounded sinks -/

/-- A sink that has taken some bytes and has room for so many more, or for any number. -/
structure Sink where
  taken : ByteArray := .empty
  /-- How many more bytes fit. -/
  room : Option Nat := none

namespace Sink

/-- The bytes that a sink has taken, as a list. -/
def bytes (s : Sink) : Bytes := s.taken.data.toList

/-- The part of some bytes that fits. -/
def fitting (s : Sink) (b : Bytes) : Bytes :=
  match s.room with
  | none => b
  | some k => b.take k

/-- There is room for so many more bytes. -/
def hasRoom (s : Sink) (n : Nat) : Bool :=
  match s.room with
  | none => true
  | some k => n ≤ k

/-- The sink after it has taken what fits of some bytes. -/
def take (s : Sink) (b : Bytes) : Sink :=
  { taken := s.taken ++ (s.fitting b).toByteArray, room := s.room.map (· - b.length) }

/-- Puts some bytes into the sink: all of them, or as many as fit and a failure. -/
def put (b : Bytes) : StateM Sink (Except Unit Unit) := fun s =>
  (if s.hasRoom b.length then .ok () else .error (), s.take b)

end Sink

/-! ### Buffers -/

/-- A failure, and how far one had come: after a refused write the number of bytes that were taken,
after a buffer could not go on the buffer as it is left. -/
structure Stop (ε α : Type) where
  cause : ε
  reached : α

/-- A buffer that holds bytes back until the next ones do not fit. -/
structure Buffer where
  /-- How many bytes it can hold. -/
  capacity : Nat
  held : ByteArray := .empty

namespace Buffer

/-- The default capacity. -/
def defaultCapacity : Nat := 8192

/-- An empty buffer; it can hold at least one byte. -/
def empty (capacity : Nat) : Buffer := { capacity := max capacity 1 }

/-- How many more bytes fit. -/
def spare (b : Buffer) : Nat := b.capacity - b.held.size

/-- The buffer holding some more bytes. -/
def hold (b : Buffer) (bytes : Bytes) : Buffer :=
  { b with held := bytes.foldl ByteArray.push b.held }

section

variable {m : Type → Type} [Monad m] {ε : Type}

/-- Passes on the bytes that the buffer holds.  Those that are not taken stay in it. -/
@[specialize] def flush (out : ByteArray → m (Except (Stop ε Nat) Unit)) (b : Buffer) :
    m (Except (Stop ε Buffer) Buffer) := do
  if b.held.size = 0 then pure (.ok b)
  else
    match ← out b.held with
    | .error e =>
      pure (.error ⟨e.cause, { b with held := b.held.extract e.reached b.held.size }⟩)
    | .ok () => pure (.ok { b with held := .empty })

/-- Puts some bytes into the buffer.  If they do not leave room the held bytes are passed on,
unless they fit exactly; bytes that fill a whole buffer by themselves are passed on directly. -/
@[specialize] def put (out : ByteArray → m (Except (Stop ε Nat) Unit)) (b : Buffer)
    (bytes : Bytes) : m (Except (Stop ε Buffer) Buffer) := do
  if bytes.length < b.spare then pure (.ok (b.hold bytes))
  else
    match ← (if b.spare < bytes.length then b.flush out else pure (.ok b)) with
    | .error e => pure (.error e)
    | .ok b =>
      if b.capacity ≤ bytes.length then
        match ← out bytes.toByteArray with
        | .error e => pure (.error ⟨e.cause, b⟩)
        | .ok () => pure (.ok b)
      else pure (.ok (b.hold bytes))

/-- Gives up a buffer: what it holds is passed on once more, and nobody hears whether that fails. -/
@[specialize] def drop (out : ByteArray → m (Except (Stop ε Nat) Unit)) (b : Buffer) : m Unit := do
  let _ ← b.flush out
  pure ()

end

end Buffer

end Roster
