/-
**A store of files.**

A store maps locations, which are lists of names from the root, to nodes: files with their
content, directories, symbolic links and two devices, one that swallows everything and one that is
always full.  Paths are walked name by name; links are followed on the way, and at the end of the
path if the operation asks for it.  A store is a plain value, so what an operation changes and what
it leaves alone are equations.

What the system decides for other reasons than names is carried along as two functions.  One says
how long a file may become beside the other ones, so a disk can be full.  The other says to which
locations a process has no access: it may not open a file for writing, because of the permission
bits or because the file is a program that is running, or not make one, or not put one in the place
of another.  Nothing is asked of these functions, and as long as nothing is said there is space for
everything and access to everything.

Left out are four things.  A file has one name: a store has no second (hard) link to it, which would
show what is written to the file and would keep the old file where another one is put in its place.
A process may search every directory and read every file.  Nobody else changes the store meanwhile.
And the signal that comes with the size limit is ignored, so that a write is refused there.

Main definitions:

* `Roster.Node`, `Roster.Store` — nodes and stores;
* `Roster.Store.get?`, `Store.put`, `Store.erase` — a store as a finite map;
* `Roster.Store.bound`, `Store.grant` — how long a file may become, and what a process has access
  to;
* `Roster.Store.diskSpace`, `Store.ownerRefusal` — a disk of so many bytes, and an ordinary user;
* `Roster.Store.walk`, `Store.resolve` — the location that a path leads to;
* `Roster.Store.create`, `Store.append`, `Store.rename`, `Store.remove`, `Store.makeDirectories`,
  `Store.content` — the operations on files.

Main results:

* `Roster.Store.get?_put`, `Roster.Store.get?_erase` — the two equations of the finite map;
* `Roster.Store.stagingName_injective` — staging names of different numbers are different.
-/

import Roster.Sink
import Roster.Store.Error

set_option relaxedAutoImplicit false
set_option autoImplicit false

namespace Roster

/-- A location: the names from the root to it. -/
abbrev Location := List String

/-- What a location can hold. -/
inductive Node where
  | file (content : ByteArray) (mode : Nat)
  | directory (mode : Nat)
  | link (target : Path)
  /-- A device that takes everything and holds nothing. -/
  | sink
  /-- A device that takes nothing and holds endless zeros. -/
  | full

/-- What a process wants to do at a location. -/
inductive Access where
  /-- To open the file there for writing, or to make one. -/
  | write
  /-- To put another file in the place of what is there. -/
  | replace
  deriving DecidableEq, Inhabited, Repr

/-- A store: its entries, the working directory, the size that no file may exceed, the permission
bits that nothing new is given, and what the system decides about space and access. -/
structure Store where
  /-- The entries, each location at most once. -/
  entries : List (Location × Node)
  /-- The working directory. -/
  here : Location
  /-- The size that no file may exceed, if there is one. -/
  limit : Option Nat := none
  /-- The permission bits that a new file or directory is not given. -/
  umask : Nat := 0o022
  /-- The length that the file at a location cannot exceed on this disk, given the entries at the
  other locations, and why it cannot. -/
  space : Location → List (Location × Node) → Option (Nat × FileError) := fun _ _ => none
  /-- Why a process has no access to a location, given what is there. -/
  refusal : Access → Location → Option Node → Option FileError := fun _ _ _ => none

namespace Store

/-! ### A store as a finite map -/

/-- The node of a location among some entries. -/
def find? (loc : Location) : List (Location × Node) → Option Node
  | [] => none
  | (l, n) :: rest => if l = loc then some n else find? loc rest

/-- The entries with a new node at a location. -/
def insert (loc : Location) (node : Node) : List (Location × Node) → List (Location × Node)
  | [] => [(loc, node)]
  | (l, n) :: rest => if l = loc then (loc, node) :: rest else (l, n) :: insert loc node rest

/-- The node of a location. -/
def get? (s : Store) (loc : Location) : Option Node := find? loc s.entries

/-- The store with a new node at a location. -/
def put (s : Store) (loc : Location) (node : Node) : Store :=
  { s with entries := insert loc node s.entries }

/-- The store without a location. -/
def erase (s : Store) (loc : Location) : Store :=
  { s with entries := s.entries.filter fun e => e.1 ≠ loc }

/-- The entries at other locations. -/
def others (s : Store) (loc : Location) : List (Location × Node) :=
  s.entries.filter fun e => e.1 ≠ loc

theorem find?_insert (loc l : Location) (node : Node) (es : List (Location × Node)) :
    find? l (insert loc node es) = if loc = l then some node else find? l es := by
  induction es with
  | nil => simp [insert, find?]
  | cons e es ih =>
    obtain ⟨k, n⟩ := e
    simp only [insert]
    split
    · rename_i h
      subst h
      by_cases hk : k = l <;> simp [find?, hk]
    · rename_i h
      by_cases hk : k = l
      · subst hk
        simp [find?, Ne.symm h]
      · simp [find?, hk, ih]

@[simp] theorem get?_put (s : Store) (loc l : Location) (node : Node) :
    (s.put loc node).get? l = if loc = l then some node else s.get? l :=
  find?_insert loc l node s.entries

@[simp] theorem get?_erase (s : Store) (loc l : Location) :
    (s.erase loc).get? l = if loc = l then none else s.get? l := by
  unfold get? erase
  simp only
  induction s.entries with
  | nil => simp [find?]
  | cons e es ih =>
    obtain ⟨k, n⟩ := e
    by_cases h : k = loc
    · subst h
      simp only [List.filter_cons, ne_eq, not_true_eq_false, decide_false, Bool.false_eq_true,
        if_false, ih, find?]
      split <;> simp
    · simp only [List.filter_cons, ne_eq, h, not_false_eq_true, decide_true, if_true, find?, ih]
      by_cases hk : k = l
      · subst hk
        simp [Ne.symm h]
      · simp [hk]

/-! ### Space and access -/

/-- The length that the file at a location cannot exceed, and why: the limit, which is looked at
first, or what there is space for. -/
def bound (s : Store) (loc : Location) : Option (Nat × FileError) :=
  match s.limit, s.space loc (s.others loc) with
  | none, b => b
  | some k, none => some (k, .fileTooLarge)
  | some k, some (j, e) => if k ≤ j then some (k, .fileTooLarge) else some (j, e)

/-- Asks for access to a location. -/
def grant (s : Store) (access : Access) (loc : Location) : Except FileError Unit :=
  match s.refusal access loc (s.get? loc) with
  | some e => .error e
  | none => .ok ()

/-- The bytes that a node takes up. -/
def nodeSize : Node → Nat
  | .file content _ => content.size
  | _ => 0

/-- The bytes that some entries take up together. -/
def usedSpace : List (Location × Node) → Nat
  | [] => 0
  | (_, node) :: es => nodeSize node + usedSpace es

/-- The space on a disk of so many bytes: a file has what the other ones leave. -/
def diskSpace (capacity : Nat) : Location → List (Location × Node) → Option (Nat × FileError) :=
  fun _ others => some (capacity - usedSpace others, .noSpace)

/-- What is refused to an ordinary user who owns all files: to write to one whose permission bits do
not let its owner do so. -/
def ownerRefusal : Access → Location → Option Node → Option FileError
  | .write, _, some (.file _ mode) =>
    if mode &&& 0o200 = 0 then some (.other "Permission denied (os error 13)") else none
  | _, _, _ => none

/-! ### Walking a path -/

/-- Where a path leads: to a node, or to a name that a directory does not have. -/
inductive Target where
  | found (loc : Location) (node : Node)
  /-- A name that is free in a directory. -/
  | free (parent : Location) (name : String)

/-- The location where a path leads, or would. -/
def Target.location : Target → Location
  | found loc _ => loc
  | free parent name => parent ++ [name]

/-- The longest name, in bytes. -/
def maxName : Nat := 255

/-- The longest path, in bytes. -/
def maxPath : Nat := 4095

/-- How many links may be followed on one walk. -/
def maxLinks : Nat := 40

/-- What a walk is for, which decides what becomes of its last step. -/
inductive Purpose where
  /-- To name a node: a link at the end is not followed. -/
  | name
  /-- To use a node: a link at the end is followed. -/
  | use
  /-- To make a file: a link at the end is followed, and no slash may come after the last name. -/
  | make
  deriving DecidableEq, Inhabited, Repr

/-- Where some steps lead from a location.  An empty step stays where it is, as a dot does. -/
def walk (s : Store) (purpose : Purpose) (links : Nat) (loc : Location) (steps : List String) :
    Except FileError Target :=
  match steps with
  | [] =>
    match s.get? loc with
    | some node => .ok (.found loc node)
    | none => .error .notFound
  | name :: rest =>
    if name = "" ∨ name = "." then walk s purpose links loc rest
    else if name = ".." then walk s purpose links loc.dropLast rest
    -- a slash after the last name asks for a directory, and a file is to be made
    else if purpose = .make ∧ rest = [""] then .error .isDirectory
    else if maxName < name.utf8ByteSize then .error .nameTooLong
    else
      let next := loc ++ [name]
      match s.get? next with
      | none => if rest.isEmpty then .ok (.free loc name) else .error .notFound
      | some (.directory _) => walk s purpose links next rest
      | some (.link target) =>
        if rest.isEmpty ∧ purpose = .name then .ok (.found next (.link target))
        else
          match links with
          | 0 => .error .tooManyLinks
          -- the steps of the target come before those that were left; a relative one starts here
          | links + 1 =>
            walk s purpose links (if target.isAbsolute then [] else loc) (target.steps ++ rest)
      | some node => if rest.isEmpty then .ok (.found next node) else .error .notDirectory
termination_by (links, steps.length)

/-- The path can be handed to the system: it has no zero byte and is not too long. -/
def check (p : Path) : Except FileError Unit :=
  if p.hasZero then .error .zeroByte
  else if p.text = "" then .error .notFound
  else if maxPath < p.text.utf8ByteSize then .error .nameTooLong
  else .ok ()

/-- The location where the walk of a path starts. -/
def start (s : Store) (p : Path) : Location := if p.isAbsolute then [] else s.here

/-- Where a path leads, links being followed. -/
def resolve (s : Store) (purpose : Purpose) (p : Path) : Except FileError Target := do
  check p
  s.walk purpose maxLinks (s.start p) p.steps

/-- What a path names; slashes at its end make no difference. -/
def resolveName (s : Store) (p : Path) : Except FileError Target := do
  check p
  s.walk .name maxLinks (s.start p) p.names

/-- The node that a path leads to, links being followed. -/
def node (s : Store) (p : Path) : Except FileError (Location × Node) := do
  match ← s.resolve .use p with
  | .found loc node => .ok (loc, node)
  | .free _ _ => .error .notFound

/-- The path leads to a directory. -/
def isDirectory (s : Store) (p : Path) : Bool :=
  match s.node p with
  | .ok (_, .directory _) => true
  | _ => false

/-! ### Files -/

/-- Permission bits without those of a mask. -/
def unmasked (bits umask : Nat) : Nat := bits ^^^ (bits &&& umask)

/-- The permission bits of a new file. -/
def fileMode (umask : Nat := 0o022) : Nat := unmasked 0o666 umask

/-- The permission bits of a new directory. -/
def directoryMode (umask : Nat := 0o022) : Nat := unmasked 0o777 umask

/-- The permission bits of a device. -/
def deviceMode : Nat := 0o666

/-- Opens a file for writing: a file that exists is emptied, one that does not is made. -/
def create (s : Store) (p : Path) : Except FileError (Location × Store) := do
  let target ← s.resolve .make p
  if let .found _ (.directory _) := target then .error .isDirectory
  s.grant .write target.location
  match target with
  | .found loc (.file _ mode) => return (loc, s.put loc (.file .empty mode))
  | .found loc _ => return (loc, s)
  | .free parent name =>
    return (parent ++ [name], s.put (parent ++ [name]) (.file .empty (fileMode s.umask)))

/-- How many more bytes fit at a location, and why no more; `none` if there is no bound. -/
def room (s : Store) (loc : Location) : Option (Nat × FileError) :=
  match s.get? loc with
  | some (.file content _) => (s.bound loc).map fun (k, e) => (k - content.size, e)
  | some .full => some (0, .noSpace)
  | _ => none

/-- The store with bytes added to the file at a location. -/
def grow (s : Store) (loc : Location) (bytes : ByteArray) : Store :=
  match s.get? loc with
  | some (.file content mode) =>
    -- the old content is dropped from the store first, so that it can grow in place
    (s.put loc (.file .empty mode)).put loc (.file (content ++ bytes) mode)
  | _ => s

/-- Adds bytes to the file at a location: all of them, or as many as fit and a refusal. -/
def append (s : Store) (loc : Location) (bytes : ByteArray) :
    Except (Stop FileError Nat) Unit × Store :=
  match s.room loc with
  | none => (.ok (), s.grow loc bytes)
  | some (k, e) =>
    if bytes.size ≤ k then (.ok (), s.grow loc bytes)
    else (.error ⟨e, k⟩, s.grow loc (bytes.extract 0 k))

/-- Why a file could not be read. -/
inductive ReadError where
  /-- It could not be opened. -/
  | opening (cause : FileError)
  /-- It was opened, and its content could not be read. -/
  | reading (cause : FileError)
  deriving DecidableEq, Inhabited, Repr

/-- The cause of a failure to read. -/
def ReadError.cause : ReadError → FileError
  | opening cause => cause
  | reading cause => cause

/-- The content of the file that a path leads to.  Of endless zeros a reader gets the first. -/
def content (s : Store) (p : Path) : Except ReadError ByteArray :=
  match s.node p with
  | .error e => .error (.opening e)
  | .ok (_, .file content _) => .ok content
  | .ok (_, .full) => .ok (ByteArray.mk #[0])
  | .ok (_, .directory _) => .error (.reading .isDirectory)
  | .ok (_, _) => .ok .empty

/-- The permission bits of a node. -/
def Node.mode : Node → Nat
  | .file _ mode => mode
  | .directory mode => mode
  | .link _ => 0o777
  | _ => deviceMode

/-- The permission bits of the node that a path leads to. -/
def mode (s : Store) (p : Path) : Except FileError Nat := do
  let (_, node) ← s.node p
  return Node.mode node

/-- The store with other permission bits at a location. -/
def putMode (s : Store) (loc : Location) (mode : Nat) : Store :=
  match s.get? loc with
  | some (.file content _) => s.put loc (.file content mode)
  | some (.directory _) => s.put loc (.directory mode)
  | _ => s

/-- Sets the permission bits of the node that a path leads to. -/
def setMode (s : Store) (p : Path) (mode : Nat) : Except FileError Store := do
  let (loc, _) ← s.node p
  return s.putMode loc mode

/-- The size of the file that a path leads to. -/
def size (s : Store) (p : Path) : Except FileError Nat := do
  match ← s.node p with
  | (_, .file content _) => return content.size
  | _ => return 0

/-! ### Names -/

/-- Removes the file that a path names; a link is removed, not followed. -/
def remove (s : Store) (p : Path) : Except FileError Store := do
  match ← s.resolveName p with
  | .found _ (.directory _) => .error .isDirectory
  | .found loc _ => if p.endsWithSlash then .error .notDirectory else return s.erase loc
  | .free _ _ => .error .notFound

/-- Makes a symbolic link. -/
def symlink (s : Store) (p target : Path) : Except FileError Store := do
  if p.hasZero then .error .zeroByte
  check target
  match ← s.resolveName p with
  | .found _ _ => .error .alreadyExists
  | .free parent name =>
    if p.endsWithSlash then .error .notFound
    else return s.put (parent ++ [name]) (.link target)

/-- Moves the file at a location to where a path leads, in place of a file that is there. -/
def rename (s : Store) (loc : Location) (p : Path) : Except FileError Store := do
  if p.hasZero then .error .invalidArgument
  check p
  match p.names.getLast? with
  | none => .error .busy
  | some last =>
    -- the faults of the parent come before those of the last name
    let parent ← s.walk .use maxLinks (s.start p) (p.names.dropLast ++ [""])
    if last = "." ∨ last = ".." then .error .busy
    let target ← s.resolveName p
    if p.endsWithSlash then .error .notDirectory
    -- what counts is what the file would take the place of, not the file itself
    (s.erase loc).grant .replace target.location
    match parent, target, s.get? loc with
    | _, .found _ (.directory _), _ => .error .isDirectory
    | _, .found taken _, some node => return (s.erase loc).put taken node
    | _, .free parent name, some node => return (s.erase loc).put (parent ++ [name]) node
    | _, _, none => .error .notFound

/-- Makes one directory. -/
def makeDirectory (s : Store) (p : Path) : Except FileError Store := do
  match ← s.resolveName p with
  | .found _ _ => .error .alreadyExists
  | .free parent name => return s.put (parent ++ [name]) (.directory (directoryMode s.umask))

/-- Makes the first of some paths, each of which is the parent of the one before it, and before
it those of the others that are missing. -/
def makeAll : List Path → Store → Except FileError Unit × Store
  | [], s => (.ok (), s)
  | p :: parents, s =>
    match s.makeDirectory p with
    | .ok s => (.ok (), s)
    | .error e =>
      if e = .notFound then
        match makeAll parents s with
        | (.error e, s) => (.error e, s)
        | (.ok (), s) =>
          match s.makeDirectory p with
          | .ok s => (.ok (), s)
          | .error e => if s.isDirectory p then (.ok (), s) else (.error e, s)
      -- a directory that is there is as good as one that was made
      else if s.isDirectory p then (.ok (), s)
      else (.error e, s)

/-- Makes a directory and all its parents that are missing. -/
def makeDirectories (s : Store) (p : Path) : Except FileError Unit × Store :=
  makeAll p.ancestors s

/-- The names in a directory, with their nodes. -/
def list (s : Store) (p : Path) : Except FileError (List (String × Node)) := do
  match ← s.node p with
  | (loc, .directory _) =>
    return s.entries.filterMap fun (l, node) =>
      match l.getLast? with
      | some name => if l.dropLast = loc then some (name, node) else none
      | none => none
  | _ => .error .notDirectory

/-! ### Staging files -/

/-- The digits that a staging name is numbered with, six at least. -/
def stagingDigits (k : Nat) : String :=
  String.ofList (List.replicate (6 - (toString k).length) '0') ++ toString k

def stagingName (k : Nat) : String := ".gendata-" ++ stagingDigits k ++ ".tmp"

theorem ofDigitChars_replicate_zero (j : Nat) (s : List Char) :
    Nat.ofDigitChars 10 (List.replicate j '0' ++ s) 0 = Nat.ofDigitChars 10 s 0 := by
  induction j with
  | zero => simp
  | succ j ih => simpa [List.replicate_succ, Nat.ofDigitChars] using ih

/-- The digits of a staging name are read back as its number. -/
theorem ofDigitChars_stagingDigits (k : Nat) :
    Nat.ofDigitChars 10 (stagingDigits k).toList 0 = k := by
  have h : (toString k).toList = Nat.toDigits 10 k := by simp [toString, Nat.repr]
  simp only [stagingDigits, String.toList_append, String.toList_ofList,
    ofDigitChars_replicate_zero, h]
  exact Nat.ofDigitChars_toDigits (by decide) (by decide)

/-- Staging names of different numbers are different, so a store never runs out of them. -/
theorem stagingName_injective {j k : Nat} (h : stagingName j = stagingName k) : j = k := by
  have h' : (stagingDigits j).toList = (stagingDigits k).toList := by
    simpa [stagingName, String.toList_append] using congrArg String.toList h
  rw [← ofDigitChars_stagingDigits j, ← ofDigitChars_stagingDigits k, h']

/-- The first staging name that is free in a directory. -/
def freshName (s : Store) (dir : Location) : String :=
  let free (k : Nat) : Bool := (s.get? (dir ++ [stagingName k])).isNone
  -- there are more of these names than entries, so one of them is free
  stagingName (((List.range (s.entries.length + 1)).find? free).getD 0)

def locationText (loc : Location) : String := "/" ++ "/".intercalate loc

/-- Where a directory leads, given that the path of a staging file in it can be handed to the
system. -/
def stagingNode (s : Store) (dir : Path) : Except FileError (Location × Node) := do
  check (dir.join ⟨stagingName 0⟩)
  s.node dir

/-- Makes a staging file in a directory: gives its location and its path, which starts at the
root. -/
def stage (s : Store) (dir : Path) : Except FileFault (Location × Path × Store) :=
  let dir := Path.join ⟨locationText s.here⟩ dir
  match s.stagingNode dir with
  | .error e => .error ⟨e, some (dir.join ⟨stagingName 0⟩)⟩
  | .ok (loc, .directory _) =>
    let name := s.freshName loc
    match s.grant .write (loc ++ [name]) with
    | .error e => .error ⟨e, some (dir.join ⟨name⟩)⟩
    | .ok () =>
      .ok (loc ++ [name], dir.join ⟨name⟩, s.put (loc ++ [name]) (.file .empty (fileMode s.umask)))
  | .ok (_, _) => .error ⟨.notDirectory, some (dir.join ⟨stagingName 0⟩)⟩

end Store

end Roster
