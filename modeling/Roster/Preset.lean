/-
**Presets.**

A preset is a named dataset: a file and the number of its persons.  Presets come in sets, in which
no two have the same name.  Without a choice by name all presets that are enabled are meant.

Main definitions:

* `Roster.Preset`, `Roster.PresetSet` — presets and sets of them;
* `Roster.PresetSet.builtin` — the set of standard sizes;
* `Roster.PresetSet.get?`, `PresetSet.select` — choosing by name;
* `Roster.PresetSet.repeated?` — the first name that occurs twice.
-/

import Roster.Path

set_option relaxedAutoImplicit false
set_option autoImplicit false

namespace Roster

/-- A named dataset. -/
structure Preset where
  name : String
  /-- The file, below the output directory unless it is absolute. -/
  file : Path
  count : Nat
  /-- The preset is meant when no preset is named. -/
  enabled : Bool := true
  deriving DecidableEq, Inhabited, Repr

namespace Preset

/-- The preset, disabled. -/
def disabled (p : Preset) : Preset := { p with enabled := false }

/-- The path of the dataset, given the output directory. -/
def outputPath (p : Preset) (directory : Path) : Path := directory.join p.file

end Preset

/-- Presets in the order of their definition. -/
structure PresetSet where
  /-- The directory that their files are written to. -/
  outputDirectory : Option Path := none
  presets : List Preset
  deriving DecidableEq, Inhabited, Repr

/-- No preset has this name. -/
structure UnknownPreset where
  name : String
  deriving DecidableEq, Repr

namespace PresetSet

/-- The directory that datasets are written to if nothing else is said. -/
def defaultDirectory : Path := ⟨"/tmp/data"⟩

/-- The standard sizes; the largest is disabled. -/
def builtin : PresetSet where
  outputDirectory := some defaultDirectory
  presets :=
    [{ name := "sample1", file := ⟨"sample1.json"⟩, count := 1 },
      { name := "sample100", file := ⟨"sample100.json"⟩, count := 100 },
      { name := "sample100k", file := ⟨"sample100k.json"⟩, count := 100000 },
      { name := "sample1m", file := ⟨"sample1m.json"⟩, count := 1000000 },
      { name := "sample10m", file := ⟨"sample10m.json"⟩, count := 10000000, enabled := false }]

/-- The names, in the order of definition. -/
def names (s : PresetSet) : List String := s.presets.map Preset.name

/-- The preset of a name. -/
def get? (s : PresetSet) (name : String) : Option Preset := s.presets.find? fun p => p.name = name

/-- The first of some names that occurs among those before it. -/
def repeatedAfter (seen : List String) : List String → Option String
  | [] => none
  | n :: rest => if seen.contains n then some n else repeatedAfter (n :: seen) rest

/-- The first name that occurs twice. -/
def repeated? (s : PresetSet) : Option String := repeatedAfter [] s.names

/-- The presets of some names. -/
def getAll (s : PresetSet) : List String → Except UnknownPreset (List Preset)
  | [] => .ok []
  | n :: rest =>
    match s.get? n with
    | none => .error ⟨n⟩
    | some p =>
      match getAll s rest with
      | .ok ps => .ok (p :: ps)
      | .error e => .error e

/-- The presets that are meant: those of the given names, in that order and whether enabled or
not; without names the enabled ones, or all. -/
def select (s : PresetSet) (only : List String) (includeDisabled : Bool) :
    Except UnknownPreset (List Preset) :=
  if only.isEmpty then .ok (s.presets.filter fun p => p.enabled || includeDisabled)
  else s.getAll only

theorem mem_names_of_get? {s : PresetSet} {name : String} {p : Preset} (h : s.get? name = some p) :
    p.name = name ∧ p ∈ s.presets := by
  refine ⟨?_, List.mem_of_find?_eq_some h⟩
  simpa using List.find?_some h

end PresetSet

end Roster
