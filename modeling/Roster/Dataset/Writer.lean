/-
**Writing an array, element by element.**

A dataset is one JSON array.  Its writer puts the opening bracket first, then each element as it
arrives, with a comma before each but the first, and at last the closing bracket, so it never has
to know how many elements will follow.  Only elements that were written in full are counted; a
comma is put if the count is not zero.

Main definitions:

* `Roster.ArrayWriter` — a sink, a layout and the number of elements written;
* `Roster.ArrayWriter.begin`, `ArrayWriter.element`, `ArrayWriter.finish` — its life.
* `Roster.document` — **the text of a list of values as one array**.
-/

import Roster.Json.Printer
import Roster.Person.Sequence
import Roster.Person.Reader
import Roster.Sink

set_option relaxedAutoImplicit false
set_option autoImplicit false

namespace Roster

open Json

/-- A writer of an array into a sink. -/
structure ArrayWriter (σ : Type) where
  sink : σ
  style : Style
  /-- The number of elements written.  A counter of 64 bits shows the same as long as it is less than
  2 ^ 64. -/
  written : Nat := 0

/-- The pieces that an element is put as: a comma before each but the first, and the element. -/
def elementPieces (style : Style) (written : Nat) (v : Value) : List Bytes :=
  if written = 0 then v.pieces style else [0x2c] :: v.pieces style

namespace ArrayWriter

variable {m : Type → Type} [Monad m] {σ ε : Type}

@[specialize] def begin (put : σ → Bytes → m (Except ε σ)) (sink : σ) (style : Style) :
    m (Except ε (ArrayWriter σ)) := do
  match ← put sink [0x5b] with
  | .error e => pure (.error e)
  | .ok sink => pure (.ok { sink, style })

@[specialize] def element (put : σ → Bytes → m (Except ε σ)) (w : ArrayWriter σ) (v : Value) :
    m (Except ε (ArrayWriter σ)) := do
  match ← putAll put w.sink (elementPieces w.style w.written v) with
  | .error e => pure (.error e)
  | .ok sink => pure (.ok { w with sink, written := w.written + 1 })

@[specialize] def finish (put : σ → Bytes → m (Except ε σ)) (w : ArrayWriter σ) :
    m (Except ε σ) :=
  put w.sink [0x5d]

end ArrayWriter

/-! ### Documents -/

/-- The texts of elements, a comma before each but the first. -/
def elementsText (style : Style) (written : Nat) : List Value → Bytes
  | [] => []
  | v :: rest => (elementPieces style written v).flatten ++ elementsText style (written + 1) rest

/-- **The text of a list of values as one array.** -/
def document (style : Style) (vs : List Value) : Bytes :=
  0x5b :: (elementsText style 0 vs ++ [0x5d])

/-- The persons of the indices `start`, …, `start + count - 1`, as objects. -/
def personsFrom (t : Template) (start count : Nat) : List Value :=
  (List.range count).map fun i => (Person.ofIndex t (start + i)).toJson

/-- The text of a dataset: the first `count` persons of a template as one array. -/
def dataset (style : Style) (t : Template) (count : Nat) : Bytes :=
  document style (personsFrom t 0 count)

end Roster
