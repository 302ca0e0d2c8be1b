/-
**Commands.**

A command writes one dataset, writes the datasets of presets one after the other, verifies a
dataset, or shows the table of presets.  What goes wrong is told as a chain, from what was being
done to the cause.

Main definitions:

* `Roster.Command` — the commands;
* `Roster.CommandError`, with its wording `CommandError.chain`;
* `Roster.generateDataset`, `runPresets`, `verifyDataset`, `presetTable` — each of them by itself;
* `Roster.Command.run` — **runs a command**.
-/

import Roster.Dataset.Populate
import Roster.Dataset.Verify
import Roster.Preset.Load
import Roster.Preset.Table

set_option relaxedAutoImplicit false
set_option autoImplicit false

namespace Roster

open Json

/-! ### Commands -/

/-- How a command writes datasets. -/
structure WriteOptions where
  style : Style := .compact
  /-- Datasets are staged. -/
  atomic : Bool := false
  deriving Inhabited

/-- How datasets of the default template are written. -/
def WriteOptions.populate (o : WriteOptions) : PopulateOptions :=
  { style := o.style, atomic := o.atomic }

/-- Which presets are run, and how. -/
structure PresetRun where
  /-- The directory of the datasets, in place of that of the set. -/
  outputDirectory : Option Path := none
  /-- The names of the presets; without any, those that are enabled are run. -/
  only : List String := []
  /-- Those that are disabled are run as well. -/
  includeDisabled : Bool := false
  /-- The directory is made first if it is missing. -/
  createDirectory : Bool := false
  /-- The file of the presets, in place of the standard ones. -/
  source : Option Path := none
  write : WriteOptions := {}
  deriving Inhabited

inductive Command where
  | generate (output : Path) (count : Nat) (write : WriteOptions)
  | presets (run : PresetRun)
  | verify (input : Path) (count : Nat)
  | listPresets (source : Option Path)

/-! ### What can go wrong -/

/-- What can go wrong with a command. -/
inductive CommandError where
  | load (source : Path) (cause : PresetError)
  | select (cause : PresetError)
  | directory (path : Path) (cause : FileError)
  | generate (output : Path) (count : Nat) (cause : PopulateError)
  | preset (name : String) (output : Path) (count : Nat) (cause : PopulateError)
  | verify (input : Path) (cause : VerifyError)
  | mismatch (report : Report)
  deriving DecidableEq, Inhabited, Repr

/-- The line of a difference in a row. -/
def differenceLine (row : Row) (d : Difference) : String :=
  "\n  record " ++ toString row.index ++ ": field '" ++ d.field ++ "' expected " ++ d.expected
    ++ " got " ++ d.actual

/-- The summary of a report, and a line for each difference that it kept. -/
def Report.details (r : Report) : String :=
  r.summary ++ String.join (r.rows.flatMap fun row => row.differences.map (differenceLine row))

namespace CommandError

def chain : CommandError → List String
  | load source cause => ("Failed to load presets from " ++ source.quoted) :: cause.chain
  | select cause => cause.chain
  | directory path cause =>
    ["Failed to create output directory " ++ path.quoted, cause.message]
  | generate output count cause =>
    ("Failed to generate " ++ toString count ++ " records at " ++ output.quoted) :: cause.chain
  | preset name output count cause =>
    ("Failed to generate preset '" ++ name ++ "' (" ++ toString count ++ " records) at "
      ++ output.quoted) :: cause.chain
  | verify input cause => ("Failed to verify " ++ input.quoted) :: cause.chain
  | mismatch report => [report.details]

def message (e : CommandError) : String := ": ".intercalate e.chain

end CommandError

/-! ### Running them -/

section

variable {m : Type → Type} [Monad m] [Disk m]

def generateDataset (output : Path) (count : Nat) (write : WriteOptions) :
    m (Except CommandError Metrics) := do
  match ← populate write.populate output count with
  | .error e => pure (.error (.generate output count e))
  | .ok metrics => pure (.ok metrics)

/-- The presets of a file, or the standard ones. -/
def presetsOf : Option Path → m (Except CommandError PresetSet)
  | none => pure (.ok .builtin)
  | some source => do
    match ← loadPresets source with
    | .error e => pure (.error (.load source e))
    | .ok set => pure (.ok set)

/-- Writes the datasets of some presets, up to the first that fails. -/
def writePresets (write : WriteOptions) (directory : Path) :
    List Preset → m (Except CommandError (List (String × Metrics)))
  | [] => pure (.ok [])
  | p :: rest => do
    let output := p.outputPath directory
    match ← populate write.populate output p.count with
    | .error e => pure (.error (.preset p.name output p.count e))
    | .ok metrics =>
      Disk.note (.preset p.name metrics)
      match ← writePresets write directory rest with
      | .error e => pure (.error e)
      | .ok results => pure (.ok ((p.name, metrics) :: results))

/-- Makes the output directory, if that is asked for. -/
def prepareDirectory (create : Bool) (directory : Path) : m (Except CommandError Unit) := do
  if create then
    match ← Disk.makeDirectories directory with
    | .error e => pure (.error (.directory directory e))
    | .ok () => pure (.ok ())
  else pure (.ok ())

/-- Writes the datasets of the chosen presets.  Nothing is written before all of them are known. -/
def runPresets (run : PresetRun) : m (Except CommandError (List (String × Metrics))) := do
  match ← presetsOf run.source with
  | .error e => pure (.error e)
  | .ok set =>
    match set.select run.only run.includeDisabled with
    | .error e => pure (.error (.select (.unknown e.name)))
    | .ok presets =>
      let directory :=
        (run.outputDirectory <|> set.outputDirectory).getD PresetSet.defaultDirectory
      match ← prepareDirectory run.createDirectory directory with
      | .error e => pure (.error e)
      | .ok () =>
        Disk.note (.running presets.length directory)
        writePresets run.write directory presets

/-- Verifies a dataset; one that is not the expected one is an error. -/
def verifyDataset (input : Path) (count : Nat) : m (Except CommandError Report) := do
  match ← verify {} input count with
  | .error e => pure (.error (.verify input e))
  | .ok report => pure (if report.isSuccess then .ok report else .error (.mismatch report))

/-- The table of the presets of a file, or of the standard ones. -/
def presetTable (source : Option Path) : m (Except CommandError String) := do
  match ← presetsOf source with
  | .error e => pure (.error e)
  | .ok set => pure (.ok set.table)

/-- **Runs a command**, and gives what it shows. -/
def Command.run : Command → m (Except CommandError String)
  | .generate output count write => do
    match ← generateDataset output count write with
    | .error e => pure (.error e)
    | .ok _ => pure (.ok "")
  | .presets run => do
    match ← runPresets run with
    | .error e => pure (.error e)
    | .ok _ => pure (.ok "")
  | .verify input count => do
    match ← verifyDataset input count with
    | .error e => pure (.error e)
    | .ok _ => pure (.ok "")
  | .listPresets source => presetTable source

end

end Roster
