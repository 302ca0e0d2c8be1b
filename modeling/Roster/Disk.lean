/-
**Where files live.**

The writer and the verifier work on files through a handful of operations.  A *disk* is a monad
that has them; the store of `Roster.Store`, together with the notices given so far, is one, and
the machine that a program runs on is another.

What is said about runs is said about the first of them.  So it is said of a file with one name, of
a process that may read every file, and of a system in which nobody else works; that the disk is
full, or that a file may not be opened for writing, is part of the store.

Main definitions:

* `Roster.Disk` — the operations;
* `Roster.World` — a store and the notices given so far, which is the disk that statements about
  runs are made of.
-/

import Roster.Dataset.Notice
import Roster.Store

set_option relaxedAutoImplicit false
set_option autoImplicit false

namespace Roster

/-- The file operations of a monad.  An operation that is refused says why. -/
class Disk (m : Type → Type) where
  /-- A file that is open for writing. -/
  Handle : Type
  /-- Opens a file for writing: a file that exists is emptied, one that does not is made. -/
  create : Path → m (Except FileError Handle)
  /-- Makes a staging file in a directory, under a name that was free. -/
  stage : Path → m (Except FileFault (Handle × Path))
  /-- Gives an open file the permission bits of the file that a path leads to, if there is one. -/
  adoptMode : Handle → Path → m (Except FileError Unit)
  /-- Adds bytes to an open file; of a refused write it is known how many of them were added. -/
  write : Handle → ByteArray → m (Except (Stop FileError Nat) Unit)
  /-- Moves a staging file to where a path leads. -/
  publish : Handle → Path → Path → m (Except FileError Unit)
  /-- Removes a staging file. -/
  discard : Handle → Path → m Unit
  size : Path → m (Except FileError Nat)
  content : Path → m (Except Store.ReadError ByteArray)
  /-- Makes a directory and all its parents that are missing. -/
  makeDirectories : Path → m (Except FileError Unit)
  note : Notice → m Unit

/-! ### The store as a disk -/

/-- A store, and the notices given so far, the last one first. -/
structure World where
  store : Store
  notices : List Notice := []

namespace World

variable {α : Type}

/-- An operation on the store that gives a new one unless it is refused. -/
def change (f : Store → Except FileError Store) : StateM World (Except FileError Unit) :=
  fun w =>
    match f w.store with
    | .error e => (.error e, w)
    | .ok store => (.ok (), { w with store })

/-- Opens a file of the store for writing. -/
def create (p : Path) : StateM World (Except FileError Location) := fun w =>
  match w.store.create p with
  | .error e => (.error e, w)
  | .ok (loc, store) => (.ok loc, { w with store })

/-- Makes a staging file in the store. -/
def stage (dir : Path) : StateM World (Except FileFault (Location × Path)) := fun w =>
  match w.store.stage dir with
  | .error e => (.error e, w)
  | .ok (loc, path, store) => (.ok (loc, path), { w with store })

/-- Gives a location the permission bits of the node that a path leads to, if there is one. -/
def adoptMode (loc : Location) (p : Path) : StateM World (Except FileError Unit) := fun w =>
  match w.store.mode p with
  | .error _ => (.ok (), w)
  | .ok mode => (.ok (), { w with store := w.store.putMode loc mode })

/-- Adds bytes to the file at a location. -/
def write (loc : Location) (bytes : ByteArray) :
    StateM World (Except (Stop FileError Nat) Unit) :=
  fun ⟨store, notices⟩ =>
    let (r, store) := store.append loc bytes
    (r, ⟨store, notices⟩)

/-- Makes a directory and all its parents that are missing. -/
def makeDirectories (p : Path) : StateM World (Except FileError Unit) := fun w =>
  let (r, store) := w.store.makeDirectories p
  (r, { w with store })

end World

instance : Disk (StateM World) where
  Handle := Location
  create := World.create
  stage := World.stage
  adoptMode := World.adoptMode
  write := World.write
  publish loc _ p := World.change fun s => s.rename loc p
  discard loc _ := modify fun w => { w with store := w.store.erase loc }
  size p := fun w => (w.store.size p, w)
  content p := fun w => (w.store.content p, w)
  makeDirectories := World.makeDirectories
  note n := modify fun w => { w with notices := n :: w.notices }

end Roster
