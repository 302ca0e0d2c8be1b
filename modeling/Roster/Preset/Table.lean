/-
**The table of presets.**

One row for each preset, below a row of titles.  The first column is as wide as the bytes of the
longest name, and every name is filled up with blanks to that many characters.

Main definitions:

* `Roster.PresetSet.table` — **the table of a set**.
-/

import Roster.Preset

set_option relaxedAutoImplicit false
set_option autoImplicit false

namespace Roster

/-- The text, with blanks after it up to a width. -/
def fillRight (width : Nat) (s : String) : String :=
  s ++ String.ofList (List.replicate (width - s.length) ' ')

/-- The text, with blanks before it up to a width. -/
def fillLeft (width : Nat) (s : String) : String :=
  String.ofList (List.replicate (width - s.length) ' ') ++ s

/-- One row of the table. -/
def tableRow (width : Nat) (name count enabled file : String) : String :=
  fillRight width name ++ "  " ++ fillLeft 10 count ++ "  " ++ fillRight 8 enabled ++ "  " ++ file
    ++ "\n"

namespace PresetSet

/-- The width of the first column. -/
def nameWidth (s : PresetSet) : Nat :=
  s.names.foldl (fun w n => max w n.utf8ByteSize) "NAME".utf8ByteSize

/-- The row of a preset. -/
def row (width : Nat) (p : Preset) : String :=
  tableRow width p.name (toString p.count) (if p.enabled then "yes" else "no") p.file.text

/-- **The table of a set.** -/
def table (s : PresetSet) : String :=
  tableRow s.nameWidth "NAME" "COUNT" "ENABLED" "FILE"
    ++ String.join (s.presets.map (row s.nameWidth))

end PresetSet

end Roster
