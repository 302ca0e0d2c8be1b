/-
**Reading presets.**

A file of presets is a YAML document: a mapping with the presets under one key and perhaps an
output directory under another.  Each preset is again a mapping.  Keys that are not known are
skipped together with their values, a key may not be given twice, and where an alias stands the
node that it leads to is read.  A document may make its reader follow a hundred aliases for each of
its entries, and no more.

Main definitions:

* `Roster.Preset.Reading` — what is still to be read of a document;
* `Roster.Preset.Reader` — reads one kind of node from there;
* `Roster.PresetSet.ofYaml` — **the presets of a document**.
-/

import Roster.Preset
import Roster.Yaml.Document

set_option relaxedAutoImplicit false
set_option autoImplicit false

namespace Roster

open Yaml

namespace Preset

/-- What is still to be read of a document. -/
structure Reading where
  entries : List Entry
  /-- How many aliases have been followed so far. -/
  jumps : Nat := 0

/-- Reads one kind of node from the start of what is to be read, given the trail to it; gives what
it stands for and what is to be read after it. -/
abbrev Reader (α : Type) := Trail → Reading → Except Error (α × Reading)

section

variable (d : Document)

/-! ### Nodes -/

/-- Why a node is not what is wanted. -/
def wrongType (wanted : String) (e : Entry) : Error :=
  match e.kind with
  | .scalar s =>
    match s.meaning with
    | .ok m => .issue (.wrongType m wanted) none
    | .error k => .issue (.wrongValue s.text k) none
  | .sequenceStart => .issue (.wrongType .sequence wanted) none
  | .mappingStart => .issue (.wrongType .mapping wanted) none
  | _ => .ended

/-- How many aliases may be followed for each entry of a document. -/
def maxJumps : Nat := 100

/-- Goes from an alias to the node that it leads to, given how many have been followed before. -/
def jump (number jumps : Nat) : Except Error Reading :=
  if maxJumps * d.size ≤ jumps then .error .manyAliases
  else .ok { entries := d.target number, jumps := jumps + 1 }

/-- Reads the next entry, or, if it is an alias, the one that it leads to; the reader is given the
entry and what is to be read after it.  What is not as it should be in the entry itself has its
place there. -/
def readEntry {α : Type} (read : Trail → Entry → Reading → Except Error (α × Reading)) :
    Reader α := fun t r =>
  let present (r : Reading) : Except Error (α × Reading) :=
    match r.entries with
    | [] => .error d.ended
    | e :: rest =>
      match read t e { r with entries := rest } with
      | .ok r => .ok r
      | .error err => .error (err.placed e.mark t)
  match r.entries with
  | ⟨.aliasNode number, _⟩ :: rest => do
    let (a, r) ← present (← jump d number r.jumps)
    return (a, { r with entries := rest })
  | _ => present r

/-- Reads a scalar that has a value of some kind. -/
def readScalar {α : Type} (wanted : String) (value? : Scalar → Option α) : Reader α :=
  readEntry d fun _ e r =>
    match e.kind with
    | .scalar s =>
      match value? s with
      | some a => .ok (a, r)
      | none => .error (wrongType wanted e)
    | _ => .error (wrongType wanted e)

/-- Reads a text; any scalar is one. -/
def readText (wanted : String) : Reader String := readScalar d wanted fun s => some s.text

/-- Reads a path. -/
def readPath : Reader Path := readScalar d "path string" fun s => some ⟨s.text⟩

/-- The scalar is plain, or a literal block with a tag that asks for a kind. -/
def isBare (k : TagKind) (s : Scalar) : Bool :=
  s.style = .plain || (s.style = .literal && s.tag = some k.tag)

/-- Reads a number of 64 bits. -/
def readCount : Reader Nat :=
  readScalar d "u64" fun s =>
    if isBare .integer s then natural? maxWord s.text.toList else none

/-- Reads a truth value. -/
def readTruth : Reader Bool :=
  readScalar d "a boolean" fun s => if isBare .truth s then truth? s.text else none

/-- The node stands for nothing at all, or why that cannot be told. -/
def isAbsent (e : Entry) : Except Error Bool :=
  match e.kind with
  | .scalar s =>
    if s.style ≠ .plain then .ok false
    else
      match s.tag with
      | none => .ok (s.text = "" || isNull s.text)
      | some tag =>
        if tag = TagKind.null.tag then
          if isNull s.text then .ok true else .error (.issue (.wrongValue s.text .null) none)
        else .ok false
  | .void => .ok true
  | _ => .ok false

/-- Reads a node that may stand for nothing. -/
def readOptional {α : Type} (read : Reader α) : Reader (Option α) := fun t r =>
  let present (r : Reading) : Except Error (Option α × Reading) :=
    match r.entries with
    | [] => .error d.ended
    | e :: rest => do
      if ← isAbsent e then return (none, { r with entries := rest })
      let (a, r) ← read t r
      return (some a, r)
  match r.entries with
  | ⟨.aliasNode number, _⟩ :: rest => do
    let (a, r) ← present (← jump d number r.jumps)
    return (a, { r with entries := rest })
  | _ => present r

/-- The entries after one node, whatever it is; so many collections are open around them. -/
def skip : Nat → List Entry → Except Error (List Entry)
  | _, [] => .error d.ended
  | depth, e :: rest =>
    match e.kind with
    | .sequenceStart | .mappingStart => skip (depth + 1) rest
    | .sequenceEnd | .mappingEnd => if depth ≤ 1 then .ok rest else skip (depth - 1) rest
    | _ => if depth = 0 then .ok rest else skip depth rest

/-! ### Collections -/

/-- The entry stands for a collection without items. -/
def isVoid (e : Entry) : Bool :=
  match e.kind with
  | .void => true
  | .scalar s => s.isVoid
  | _ => false

/-- Reads the items of a sequence; each takes one entry at least. -/
def readItems {α : Type} (item : Reader α) (t : Trail) :
    Nat → Nat → Reading → Except Error (List α × Reading)
  | 0, _, _ => .error d.ended
  | steps + 1, index, r =>
    match r.entries with
    | [] => .error d.ended
    | ⟨.sequenceEnd, _⟩ :: rest => .ok ([], { r with entries := rest })
    | _ =>
      match item (.item t index) r with
      | .error err => .error err
      | .ok (a, r) =>
        match readItems item t steps (index + 1) r with
        | .error err => .error err
        | .ok (as, r) => .ok (a :: as, r)

/-- Reads a sequence. -/
def readSequence {α : Type} (item : Reader α) : Reader (List α) :=
  readEntry d fun t e r =>
    if e.kind = .sequenceStart then readItems d item t (d.size + 1) 0 r
    else if isVoid e then .ok ([], r)
    else .error (wrongType "a sequence" e)

/-- The trail to the value of the key that comes next. -/
def valueTrail (t : Trail) (es : List Entry) : Trail :=
  match es with
  | ⟨.scalar s, _⟩ :: _ => .key t s.text
  | _ => .unknown t

/-- Reads the members of a mapping, the value of each known key by a reader of its own. -/
def readMembers {σ : Type} (member : String → Option (σ → Reader σ)) (t : Trail) :
    Nat → σ → Reading → Except Error (σ × Reading)
  | 0, _, _ => .error d.ended
  | steps + 1, acc, r =>
    match r.entries with
    | [] => .error d.ended
    | ⟨.mappingEnd, _⟩ :: rest => .ok (acc, { r with entries := rest })
    | es =>
      match readText d "field identifier" t r with
      | .error err => .error err
      | .ok (key, r) =>
        match member key with
        | none =>
          match skip d 0 r.entries with
          | .error err => .error err
          | .ok rest => readMembers member t steps acc { r with entries := rest }
        | some read =>
          match read acc (valueTrail t es) r with
          | .error err => .error err
          | .ok (acc, r) => readMembers member t steps acc r

/-- Reads a mapping of known keys. -/
def readMapping {σ α : Type} (wanted : String) (member : String → Option (σ → Reader σ))
    (start : σ) (finish : σ → Except Error α) : Reader α :=
  readEntry d fun t e r => do
    let (acc, r) ←
      if e.kind = .mappingStart then readMembers d member t (d.size + 1) start r
      else if isVoid e then .ok (start, r)
      else .error (wrongType wanted e)
    return (← finish acc, r)

/-- Reads the value of a key that has not been given before, and keeps it. -/
def readOnce {σ α : Type} (key : String) (given : σ → Bool) (set : α → σ → σ) (read : Reader α) :
    σ → Reader σ := fun acc t r =>
  if given acc then .error (.issue (.duplicate key) none)
  else
    match read t r with
    | .error err => .error err
    | .ok (a, r) => .ok (set a acc, r)

/-- The value of a key, which has to be given. -/
def required {α : Type} (key : String) : Option α → Except Error α
  | some a => .ok a
  | none => .error (.issue (.missing key) none)

/-! ### Presets -/

/-- What has been read of a preset. -/
structure Draft where
  name : Option String := none
  file : Option Path := none
  count : Option Nat := none
  enabled : Option Bool := none

/-- The readers of the members of a preset. -/
def member (key : String) : Option (Draft → Reader Draft) :=
  if key = "name" then
    some (readOnce key (·.name.isSome) (fun v p => { p with name := some v })
      (readText d "a string"))
  else if key = "file" then
    some (readOnce key (·.file.isSome) (fun v p => { p with file := some v }) (readPath d))
  else if key = "count" then
    some (readOnce key (·.count.isSome) (fun v p => { p with count := some v }) (readCount d))
  else if key = "enabled" then
    some (readOnce key (·.enabled.isSome) (fun v p => { p with enabled := some v })
      (readTruth d))
  else none

/-- The preset of a draft; only `enabled` may be missing. -/
def Draft.finish (p : Draft) : Except Error Preset := do
  let name ← required "name" p.name
  let file ← required "file" p.file
  let count ← required "count" p.count
  return { name, file, count, enabled := p.enabled.getD true }

/-- Reads a preset. -/
def read : Reader Preset := readMapping d "struct Preset" (member d) {} Draft.finish

/-- What has been read of a set of presets. -/
structure SetDraft where
  /-- The output directory, if it was given. -/
  outputDirectory : Option (Option Path) := none
  presets : Option (List Preset) := none

/-- The readers of the members of a set. -/
def setMember (key : String) : Option (SetDraft → Reader SetDraft) :=
  if key = "output_dir" then
    some (readOnce key (·.outputDirectory.isSome)
      (fun v s => { s with outputDirectory := some v }) (readOptional d (readPath d)))
  else if key = "presets" then
    some (readOnce key (·.presets.isSome) (fun v s => { s with presets := some v })
      (readSequence d (read d)))
  else none

/-- The set of a draft; only the output directory may be missing. -/
def SetDraft.finish (s : SetDraft) : Except Error PresetSet := do
  let presets ← required "presets" s.presets
  return { outputDirectory := s.outputDirectory.join, presets }

/-- Reads a set of presets. -/
def readSet : Reader PresetSet :=
  readMapping d "struct PresetSet" (setMember d) {} SetDraft.finish

end

end Preset

/-- **The presets of a document.**  Nothing may follow the document. -/
def PresetSet.ofYaml (s : String) : Except Yaml.Error PresetSet := do
  let (d, more) := Document.read s
  let (set, _) ← Preset.readSet d .root { entries := d.entries }
  match d.error with
  | some e => .error e
  | none => if more then .error .manyDocuments else .ok set

end Roster
