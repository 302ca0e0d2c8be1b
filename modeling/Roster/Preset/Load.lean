/-
**Loading presets.**

Main definitions:

* `Roster.PresetError` — what can go wrong with presets, with `PresetError.message`;
* `Roster.PresetSet.parse` — the presets of a text, no two of the same name;
* `Roster.loadPresets` — **the presets of a file**.
-/

import Roster.Disk
import Roster.Preset.Reader

set_option relaxedAutoImplicit false
set_option autoImplicit false

namespace Roster

/-- What can go wrong with presets. -/
inductive PresetError where
  | unreadable (cause : FileError)
  /-- The file holds no set of presets. -/
  | malformed (cause : Yaml.Error)
  | duplicate (name : String)
  | unknown (name : String)
  deriving DecidableEq, Inhabited, Repr

namespace PresetError

def message : PresetError → String
  | unreadable cause => "Failed to read preset file: " ++ cause.message
  | malformed cause => "Failed to parse YAML: " ++ cause.message
  | duplicate name => "Duplicate preset name: " ++ name
  | unknown name => "Unknown preset: " ++ name

def chain : PresetError → List String
  | e@(unreadable cause) => [e.message, cause.message]
  | e@(malformed cause) => [e.message, cause.message]
  | e => [e.message]

end PresetError

/-- The presets of a text, no two of the same name. -/
def PresetSet.parse (s : String) : Except PresetError PresetSet :=
  match PresetSet.ofYaml s with
  | .error e => .error (.malformed e)
  | .ok set =>
    match set.repeated? with
    | some name => .error (.duplicate name)
    | none => .ok set

/-- The presets of the content of a file. -/
def PresetSet.ofContent (content : ByteArray) : Except PresetError PresetSet :=
  match String.fromUTF8? content with
  | none => .error (.unreadable .notText)
  | some s => PresetSet.parse s

/-- **The presets of a file.** -/
def loadPresets {m : Type → Type} [Monad m] [Disk m] (path : Path) :
    m (Except PresetError PresetSet) := do
  match ← Disk.content path with
  | .error e => pure (.error (.unreadable e.cause))
  | .ok content => pure (PresetSet.ofContent content)

end Roster
