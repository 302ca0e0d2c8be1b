/-
**Writing a dataset to a file.**

A dataset is written either in place or by way of a staging file.  In place, the destination is
emptied first and then filled, and a failure leaves what was written so far.  With staging, the
dataset is written to a new file in the directory of the destination, which takes the place of
the destination once it is complete and is removed if anything fails, so the destination is
either the old file or the whole new one.  Whether all persons have indices is settled before any
file is touched.

Main definitions:

* `Roster.PopulateOptions` — template, layout, staging and buffer;
* `Roster.populate` — **writes a dataset**;
* `Roster.PopulateError` — what can go wrong.
-/

import Roster.Disk

set_option relaxedAutoImplicit false
set_option autoImplicit false

namespace Roster

open Json

/-- How a dataset is written. -/
structure PopulateOptions where
  template : Template := {}
  style : Style := .compact
  /-- The dataset is staged. -/
  atomic : Bool := false
  /-- How many bytes are held back before the file. -/
  bufferSize : Nat := Buffer.defaultCapacity
  deriving Inhabited

/-- Why a dataset was not written. -/
inductive PopulateError where
  | file (path : Path) (fault : FileFault)
  /-- The dataset would need persons that do not exist. -/
  | overflow (e : Overflow)
  deriving DecidableEq, Inhabited, Repr

namespace PopulateError

def message : PopulateError → String
  | file path fault => "IO error on '" ++ path.text ++ "': " ++ fault.message
  | overflow e => "Generator error: " ++ e.message

def chain : PopulateError → List String
  | e@(file _ fault) => [e.message, fault.message]
  | e@(overflow o) => [e.message, o.message]

end PopulateError

section

variable {m : Type → Type} [Monad m] [Disk m]

/-- Writes the persons of a batch, each counted by `rows` and reported at every interval. -/
@[specialize] def writeBatch (put : Buffer → Bytes → m (Except (Stop FileError Buffer) Buffer))
    (b : Batch) (w : ArrayWriter Buffer) :
    m (Except (Stop FileError Buffer) (ArrayWriter Buffer)) :=
  match _h : b.next with
  | (none, _) => pure (.ok w)
  | (some p, b') => do
    match ← w.element put p.toJson with
    | .error e => pure (.error e)
    | .ok w => do
      if w.written % progressInterval = 0 then Disk.note (.written w.written)
      writeBatch put b' w
termination_by b.remaining
decreasing_by exact Batch.remaining_lt_of_next _h

/-- Writes a batch of persons as one array through a buffer, and gives their number. -/
@[specialize] def writeArray (o : PopulateOptions) (b : Batch)
    (out : ByteArray → m (Except (Stop FileError Nat) Unit)) :
    m (Except (Stop FileError Buffer) Nat) := do
  let put := Buffer.put out
  match ← ArrayWriter.begin put (Buffer.empty o.bufferSize) o.style with
  | .error e => pure (.error e)
  | .ok w =>
    match ← writeBatch put b w with
    | .error e => pure (.error e)
    | .ok w =>
      match ← w.finish put with
      | .error e => pure (.error e)
      | .ok buffer =>
        match ← buffer.flush out with
        | .error e => pure (.error e)
        | .ok _ => pure (.ok w.written)

/-- Writes a batch of persons as one array to an open file, and gives their number.  After a failure
the buffer is given up with what it still holds. -/
@[specialize] def writeTo (o : PopulateOptions) (b : Batch) (file : Disk.Handle m) :
    m (Except FileError Nat) := do
  match ← writeArray o b (Disk.write file) with
  | .ok rows => pure (.ok rows)
  | .error e => do
    e.reached.drop (Disk.write file)
    pure (.error e.cause)

/-- Writes a batch of persons to the file that a path leads to. -/
def writeInPlace (o : PopulateOptions) (b : Batch) (path : Path) : m (Except FileFault Nat) := do
  match ← Disk.create path with
  | .error e => pure (.error ⟨e, none⟩)
  | .ok file =>
    match ← writeTo o b file with
    | .error e => pure (.error ⟨e, none⟩)
    | .ok rows => pure (.ok rows)

/-- The directory in which a dataset is staged: that of its destination. -/
def stagingDirectory (path : Path) : Path :=
  match path.parent? with
  | some dir => if dir.text = "" then ⟨"."⟩ else dir
  | none => ⟨"."⟩

/-- Writes a batch of persons to a staging file, and moves it to where a path leads. -/
def writeStaged (o : PopulateOptions) (b : Batch) (path : Path) : m (Except FileFault Nat) := do
  match ← Disk.stage (stagingDirectory path) with
  | .error e => pure (.error e)
  | .ok (file, staging) =>
    -- whatever is refused from here on, the staging file is taken away
    let fail (e : FileError) : m (Except FileFault Nat) := do
      Disk.discard file staging
      pure (.error ⟨e, none⟩)
    match ← Disk.adoptMode file path with
    | .error e => fail e
    | .ok () =>
      Disk.note (.staging staging)
      match ← writeTo o b file with
      | .error e => fail e
      | .ok rows =>
        match ← Disk.publish file staging path with
        | .error e => fail e
        | .ok () => pure (.ok rows)

/-- **Writes a dataset**: the first `count` persons of the template, as one array. -/
def populate (o : PopulateOptions) (path : Path) (count : Nat) :
    m (Except PopulateError Metrics) := do
  Disk.note (.generating path count o.style o.atomic)
  match Sequence.batch { template := o.template } count with
  | .error e => pure (.error (.overflow e))
  | .ok b =>
    match ← (if o.atomic then writeStaged o b path else writeInPlace o b path) with
    | .error e => pure (.error (.file path e))
    | .ok rows =>
      match ← Disk.size path with
      | .error e => pure (.error (.file path ⟨e, none⟩))
      | .ok bytes =>
        let metrics : Metrics := { rows, bytes }
        Disk.note (.generated metrics)
        pure (.ok metrics)

end

end Roster
