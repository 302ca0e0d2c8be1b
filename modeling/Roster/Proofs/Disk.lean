/-
**Running programs on a store.**

A program that works on a disk is run on a world, a store together with the notices given so far.
The equations here say what one operation does to a world, so that a program is run by rewriting.

A file that is being written is seen as a location of a store that is otherwise left alone
(`Roster.OpenFile`).  Text reaches it through a buffer: at any time the file and the buffer
together hold all of the text so far, and when the file has grown to its bound it holds as much of
the text as that allows, wherever the buffer has cut the text.  What the buffer holds then is what
comes next in the text, so that it may well be tried again when the buffer is given up: nothing is
put twice or out of order.  At the bound this adds nothing.

Main definitions:

* `Roster.OpenFile` — a file that is being written;
* `Roster.OpenFile.Holds`, `Roster.OpenFile.Cut` — all of a text has been put; it was too long;
* `Roster.OpenFile.Stopped` — it was too long, and some of it is still in a buffer.

Main results:

* `Roster.World.run_note` and the like — one operation;
* `Roster.OpenFile.fills` — **a buffer before a file goes on, or the file is cut at its bound**;
* `Roster.OpenFile.Cut.run_drop` — **a buffer that is given up then adds nothing**.
-/

import Roster.Disk
import Roster.Proofs.Sink
import Roster.Proofs.Store.Walk

set_option relaxedAutoImplicit false
set_option autoImplicit false

namespace Roster

namespace World

/-! ### Operations -/

/-- The world after a notice. -/
def noted (w : World) (n : Notice) : World := { w with notices := n :: w.notices }

@[simp] theorem store_noted (w : World) (n : Notice) : (w.noted n).store = w.store := rfl

theorem run_note (n : Notice) (w : World) :
    (Disk.note n : StateM World Unit).run w = ((), w.noted n) := rfl

theorem run_content (p : Path) (w : World) :
    (Disk.content p : StateM World _).run w = (w.store.content p, w) := rfl

theorem run_size (p : Path) (w : World) :
    (Disk.size p : StateM World _).run w = (w.store.size p, w) := rfl

theorem run_makeDirectories (p : Path) (w : World) :
    (Disk.makeDirectories p : StateM World _).run w =
      ((w.store.makeDirectories p).1, { w with store := (w.store.makeDirectories p).2 }) := rfl

theorem run_write (loc : Location) (bytes : ByteArray) (w : World) :
    (World.write loc bytes).run w =
      ((w.store.append loc bytes).1, { w with store := (w.store.append loc bytes).2 }) := rfl

theorem run_discard (loc : Location) (path : Path) (w : World) :
    (Disk.discard (m := StateM World) loc path).run w =
      ((), { w with store := w.store.erase loc }) := rfl

theorem run_stage_of_ok {dir staging : Path} {w : World} {loc : Location} {store : Store}
    (h : w.store.stage dir = .ok (loc, staging, store)) :
    (World.stage dir).run w = (.ok (loc, staging), { w with store }) := by
  delta World.stage StateT.run
  rw [h]

theorem run_stage_of_error {dir : Path} {w : World} {e : FileFault}
    (h : w.store.stage dir = .error e) : (World.stage dir).run w = (.error e, w) := by
  delta World.stage StateT.run
  rw [h]

theorem run_create_of_ok {path : Path} {w : World} {loc : Location} {store : Store}
    (h : w.store.create path = .ok (loc, store)) :
    (World.create path).run w = (.ok loc, { w with store }) := by
  delta World.create StateT.run
  rw [h]

theorem run_create_of_error {path : Path} {w : World} {e : FileError}
    (h : w.store.create path = .error e) : (World.create path).run w = (.error e, w) := by
  delta World.create StateT.run
  rw [h]

/-- A file is made, or emptied, where a path leads, or nothing changes. -/
theorem run_create {path : Path} {w : World} (hfile : w.store.FileOrNothing path) :
    Outcome (fun loc w' => ∃ target mode, w.store.resolve .make path = .ok target ∧
        target.location = loc ∧ w'.store = w.store.put loc (.file .empty mode))
      (fun _ w' => w' = w) ((World.create path).run w) := by
  cases h : w.store.create path with
  | error e =>
      rw [run_create_of_error h]
      exact .error rfl
  | ok made =>
      rw [run_create_of_ok h]
      refine .ok (Store.create_eq_ok ?_ h)
      intro loc node hmake
      exact hfile loc node (Store.node_of_resolve_make hmake)

/-- A file is moved to where a path names, or nothing changes. -/
theorem run_rename (loc : Location) (path : Path) (w : World) :
    Outcome (fun _ w' => w.store.rename loc path = .ok w'.store)
      (fun e w' => w' = w ∧ w.store.rename loc path = .error e)
      ((World.change fun s => s.rename loc path).run w) := by
  delta World.change StateT.run
  dsimp only
  cases h : w.store.rename loc path with
  | error e => exact .error ⟨rfl, rfl⟩
  | ok store => exact .ok rfl

end World

/-! ### Buffers -/

namespace Buffer

/-- The bytes that a buffer holds, as a list. -/
def bytes (b : Buffer) : Bytes := b.held.data.toList

theorem bytes_hold (b : Buffer) (bs : Bytes) : (b.hold bs).bytes = b.bytes ++ bs := by
  have hpush : ∀ (a : ByteArray),
      (bs.foldl ByteArray.push a).data.toList = a.data.toList ++ bs := by
    induction bs with
    | nil => simp
    | cons x bs ih =>
        intro a
        rw [List.foldl_cons, ih]
        simp
  exact hpush b.held

theorem bytes_extract (b : Buffer) (k : Nat) :
    bytes { b with held := b.held.extract k b.held.size } = b.bytes.drop k := by
  have hlength : (b.bytes.drop k).length ≤ b.held.size - k := by
    rw [List.length_drop]
    exact Nat.le_refl _
  have hextract : bytes { b with held := b.held.extract k b.held.size } =
      (b.bytes.drop k).take (b.held.size - k) := by
    simp [bytes]
  rw [hextract, List.take_of_length_le hlength]

theorem length_bytes (b : Buffer) : b.bytes.length = b.held.size := rfl

end Buffer

/-! ### Files that are being written -/

/-- A file that is being written: its location, the store that it was made in, and its permission
bits. -/
structure OpenFile where
  /-- The store; what it has at the location makes no difference. -/
  base : Store
  /-- The location. -/
  loc : Location
  /-- The permission bits. -/
  mode : Nat

namespace OpenFile

variable {f : OpenFile} {text bs : Bytes} {b : Buffer} {w : World}

/-- The store with some text in the file. -/
def holding (f : OpenFile) (text : Bytes) : Store :=
  f.base.put f.loc (.file text.toByteArray f.mode)

/-- A file may be as long as the text. -/
def Fits (f : OpenFile) (text : Bytes) : Prop :=
  ∀ k e, f.base.bound f.loc = some (k, e) → text.length ≤ k

/-- The file and the buffer together hold all of the text. -/
structure Holds (f : OpenFile) (text : Bytes) (b : Buffer) (w : World) : Prop where
  /-- The buffer can hold something. -/
  capacity : 0 < b.capacity
  /-- The file has the first part of the text, the buffer the rest. -/
  split : ∃ written, w.store = f.holding written ∧ written ++ b.bytes = text ∧ f.Fits written

/-- The text was too long, and the file holds as much of it as it can. -/
def Cut (f : OpenFile) (text : Bytes) (e : FileError) (w : World) : Prop :=
  ∃ k, f.base.bound f.loc = some (k, e) ∧ k < text.length ∧ w.store = f.holding (text.take k)

/-- The text was too long for the file, and a buffer has not been able to pass on what it holds. -/
structure Stopped (f : OpenFile) (text : Bytes) (e : Stop FileError Buffer) (w : World) : Prop where
  /-- The file holds as much of the text as it can. -/
  cut : f.Cut text e.cause w
  /-- The buffer holds what comes next. -/
  next : ∀ k cause, f.base.bound f.loc = some (k, cause) →
    text.take k ++ e.reached.bytes <+: text

/-- All of the text is in the file. -/
def Filled (f : OpenFile) (text : Bytes) (w : World) : Prop :=
  w.store = f.holding text ∧ f.Fits text

/-- A file without a bound may be as long as any text. -/
theorem Fits.of_bound_eq_none (h : f.base.bound f.loc = none) (text : Bytes) : f.Fits text := by
  intro k e hbound
  cases h.symm.trans hbound

/-- A file is not cut at a text that it may be as long as. -/
theorem Cut.not_fits {e : FileError} (h : f.Cut text e w) : ¬f.Fits text := by
  obtain ⟨k, hbound, hlt, -⟩ := h
  intro hfits
  exact Nat.not_lt.2 (hfits k e hbound) hlt

/-- Where a text was too long a longer one is. -/
theorem Cut.longer {e : FileError} (h : f.Cut text e w) (bs : Bytes) : f.Cut (text ++ bs) e w := by
  obtain ⟨k, hbound, hlt, hstore⟩ := h
  refine ⟨k, hbound, ?_, ?_⟩
  · rw [List.length_append]
    omega
  · rw [hstore, List.take_append_of_le_length (Nat.le_of_lt hlt)]

/-- Where a text was too long a longer one is, and the buffer holds what comes next in both. -/
theorem Stopped.longer {e : Stop FileError Buffer} (h : f.Stopped text e w) (bs : Bytes) :
    f.Stopped (text ++ bs) e w where
  cut := h.cut.longer bs
  next := by
    intro k cause hbound
    obtain ⟨k', hbound', hlt, -⟩ := h.cut
    obtain ⟨rfl, -⟩ := Prod.mk.inj (Option.some.inj (hbound.symm.trans hbound'))
    rw [List.take_append_of_le_length (Nat.le_of_lt hlt)]
    exact (h.next k cause hbound).trans (List.prefix_append text bs)

/-- The bytes of a file are those of a text and of what was added to it. -/
theorem toByteArray_append (text : Bytes) (bytes : ByteArray) :
    (text ++ bytes.data.toList).toByteArray = text.toByteArray ++ bytes :=
  ByteArray.ext (by simp [List.data_toByteArray])

theorem toByteArray_append_take (text : Bytes) (bytes : ByteArray) (k : Nat) :
    (text ++ bytes.data.toList.take k).toByteArray = text.toByteArray ++ bytes.extract 0 k :=
  ByteArray.ext (by simp [List.data_toByteArray])

/-- Bytes that are written end up in the file, as far as it may become that long. -/
theorem run_write (h : f.Filled text w) (bytes : ByteArray) :
    Outcome (fun _ w => f.Filled (text ++ bytes.data.toList) w)
      (fun e w => f.Cut (text ++ bytes.data.toList) e.cause w ∧
        ∀ k cause, f.base.bound f.loc = some (k, cause) → text.length + e.reached = k)
      ((World.write f.loc bytes).run w) := by
  obtain ⟨hstore, hfits⟩ := h
  have hsize : text.toByteArray.size = text.length := List.size_toByteArray
  have hlength : bytes.data.toList.length = bytes.size := rfl
  rw [World.run_write, hstore, holding, Store.append_put]
  cases hbound : f.base.bound f.loc with
  | none =>
      refine .ok ⟨?_, .of_bound_eq_none hbound _⟩
      rw [holding, toByteArray_append]
  | some b =>
      obtain ⟨k, e⟩ := b
      have hk := hfits k e hbound
      by_cases hroom : bytes.size ≤ k - text.toByteArray.size
      · simp only [hroom, if_true]
        refine .ok ⟨?_, fun k' e' hk' => ?_⟩
        · rw [holding, toByteArray_append]
        · obtain ⟨rfl, -⟩ := Prod.mk.inj (Option.some.inj (hbound.symm.trans hk'))
          rw [List.length_append]
          omega
      · simp only [hroom, if_false]
        refine .error ⟨⟨k, hbound, ?_, ?_⟩, fun k' e' hk' => ?_⟩
        · rw [List.length_append]
          omega
        · rw [holding, List.take_append, List.take_of_length_le hk, toByteArray_append_take, hsize]
        · obtain ⟨rfl, -⟩ := Prod.mk.inj (Option.some.inj hk')
          dsimp only
          omega

/-- At its bound a file takes no bytes. -/
theorem Cut.run_write {e : FileError} (h : f.Cut text e w) {bytes : ByteArray}
    (hbytes : bytes.size ≠ 0) : (World.write f.loc bytes).run w = (.error ⟨e, 0⟩, w) := by
  obtain ⟨k, hbound, hlt, hstore⟩ := h
  have hsize : (text.take k).toByteArray.size = k := by
    rw [List.size_toByteArray, List.length_take, Nat.min_eq_left (Nat.le_of_lt hlt)]
  have hnone : bytes.extract 0 0 = .empty := by simp
  have hsame : { w with store := f.holding (text.take k) } = w := by rw [← hstore]
  rw [World.run_write, hstore, holding, Store.append_put, hbound]
  simp only [hsize, Nat.sub_self, Nat.le_zero, hbytes, if_false, hnone, ByteArray.append_empty]
  exact congrArg _ hsame

/-- An open file takes on the permission bits of the file that a path leads to, if there is one. -/
theorem run_adoptMode (h : w.store = f.holding text) (path : Path) :
    (World.adoptMode f.loc path).run w =
      (.ok (), { w with
        store := OpenFile.holding { f with mode := (w.store.mode path).toOption.getD f.mode }
          text }) := by
  delta World.adoptMode StateT.run
  cases w.store.mode path with
  | error e => simp [Except.toOption, ← h]
  | ok mode => simp [Except.toOption, h, holding]

/-- A file at a location that was free can be taken away again. -/
theorem erase_holding (h : f.base.get? f.loc = none) (text : Bytes) :
    (f.holding text).erase f.loc = f.base :=
  Store.erase_put h _

/-- A staging file that is discarded leaves the store that it was made in. -/
theorem store_run_discard (hfree : f.base.get? f.loc = none) (h : w.store = f.holding text)
    (path : Path) : ((Disk.discard (m := StateM World) f.loc path).run w).2.store = f.base := by
  rw [World.run_discard]
  show w.store.erase f.loc = f.base
  rw [h, erase_holding hfree]

/-! ### A buffer before a file -/

/-- The bytes that a buffer holds are passed on, or those that are left are what comes next. -/
theorem run_flush (h : f.Holds text b w) :
    Outcome (fun b' w => b'.capacity = b.capacity ∧ b'.bytes = [] ∧ f.Filled text w)
      (f.Stopped text) ((b.flush (World.write f.loc)).run w) := by
  obtain ⟨hcapacity, written, hstore, rfl, hfits⟩ := h
  unfold Buffer.flush
  split
  · rename_i hempty
    have hnil : b.bytes = [] := List.eq_nil_of_length_eq_zero hempty
    rw [hnil, List.append_nil]
    exact .ok ⟨rfl, hnil, hstore, hfits⟩
  · refine (run_write ⟨hstore, hfits⟩ b.held).bind ?_ ?_
    · intro _ w' hfilled
      exact .ok ⟨rfl, rfl, hfilled⟩
    · rintro e w' ⟨hcut, hreached⟩
      refine .error ⟨hcut, fun k cause hbound => ?_⟩
      obtain rfl := hreached k cause hbound
      have hleft : Buffer.bytes { b with held := b.held.extract e.reached b.held.size } =
          b.bytes.drop e.reached := Buffer.bytes_extract b e.reached
      rw [hleft, List.take_length_add_append, List.append_assoc]
      simp only [List.take_append_drop, List.prefix_rfl]

/-- **A buffer before a file goes on, or the file is cut at its bound.** -/
theorem fills (f : OpenFile) :
    Fills (Buffer.put (World.write f.loc)) f.Holds f.Stopped where
  longer bs h := h.longer bs
  put := by
    intro text b w bs h
    unfold Buffer.put
    split
    · -- the buffer holds the bytes back
      obtain ⟨hcapacity, written, hstore, rfl, hfits⟩ := h
      refine .ok ⟨hcapacity, written, hstore, ?_, hfits⟩
      rw [Buffer.bytes_hold, List.append_assoc]
    rename_i hspare
    -- the buffer is passed on first, unless the bytes fit exactly
    have hfirst : Outcome
        (fun b' w => b'.capacity = b.capacity ∧ f.Holds text b' w ∧
          (b'.capacity ≤ bs.length → b'.bytes = [])) (f.Stopped text)
        ((if b.spare < bs.length then b.flush (World.write f.loc) else pure (.ok b) :
          StateM World (Except (Stop FileError Buffer) Buffer)).run w) := by
      split
      · refine (run_flush h).mono ?_ fun _ _ hstopped => hstopped
        rintro b' w' ⟨hcap, hnil, hstore, hfits⟩
        refine ⟨hcap, ⟨hcap ▸ h.capacity, text, hstore, ?_, hfits⟩, fun _ => hnil⟩
        rw [hnil, List.append_nil]
      · refine .ok ⟨rfl, h, fun hlarge => List.eq_nil_of_length_eq_zero ?_⟩
        rw [Buffer.length_bytes]
        have hcapacity := h.capacity
        unfold Buffer.spare at *
        omega
    refine hfirst.bind ?_ fun e w' hstopped => .error (hstopped.longer bs)
    rintro b' w' ⟨hcap, hholds, hnil⟩
    obtain ⟨hcapacity, written, hstore, rfl, hfits⟩ := hholds
    by_cases hlarge : b'.capacity ≤ bs.length
    · -- bytes that fill a whole buffer go to the file directly
      simp only [hlarge, if_true]
      have hwrite := run_write ⟨hstore, hfits⟩ bs.toByteArray
      rw [List.toList_data_toByteArray] at hwrite
      rw [hnil hlarge, List.append_nil]
      refine hwrite.bind ?_ ?_
      · rintro _ w'' ⟨hstore', hfits'⟩
        refine .ok ⟨hcapacity, written ++ bs, hstore', ?_, hfits'⟩
        rw [hnil hlarge, List.append_nil]
      · rintro e w'' ⟨hcut, -⟩
        -- then the buffer holds nothing
        refine .error ⟨hcut, fun k cause _ => ?_⟩
        dsimp only
        rw [hnil hlarge, List.append_nil]
        exact List.take_prefix k (written ++ bs)
    · simp only [hlarge, if_false]
      refine .ok ⟨hcapacity, written, hstore, ?_, hfits⟩
      rw [Buffer.bytes_hold, List.append_assoc]

/-- **A buffer that is given up adds nothing** to a file that has been cut. -/
theorem Cut.run_drop {e : FileError} (h : f.Cut text e w) (b : Buffer) :
    (b.drop (World.write f.loc)).run w = ((), w) := by
  unfold Buffer.drop Buffer.flush
  split
  · rfl
  · rename_i hheld
    rw [run_bind, run_bind, h.run_write hheld]
    rfl

end OpenFile

end Roster
