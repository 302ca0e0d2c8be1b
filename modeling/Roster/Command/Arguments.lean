/-
**Command lines.**

The first argument names the command, the others are its options.  An option has a long name after
two dashes, and some have a letter after one dash; most have a value, which is the rest of the
argument or the next one.  A value that would look like an option cannot be the next argument, only
the rest of one.  Two options can be given by the environment as well.

Main definitions:

* `Roster.Arguments.Spec` — an option of a command;
* `Roster.UsageError` — what can be wrong with a command line;
* `Roster.Arguments.scan` — the options that are given, in order;
* `Roster.Arguments.parse` — **the command of a command line**.
-/

import Roster.Command

set_option relaxedAutoImplicit false
set_option autoImplicit false

namespace Roster

open Json

/-- What can be wrong with a command line. -/
inductive UsageError where
  | noCommand
  | unknownCommand (name : String)
  | unexpectedArgument (text : String)
  | unknownOption (text : String)
  | missingValue (option : String)
  | unexpectedValue (option : String)
  | repeatedOption (option : String)
  | missingOption (option : String)
  | invalidValue (option value : String)
  deriving DecidableEq, Inhabited, Repr

def UsageError.message : UsageError → String
  | noCommand => "a command is required: generate, presets, verify or list-presets"
  | unknownCommand name => "unrecognized command '" ++ name ++ "'"
  | unexpectedArgument text => "unexpected argument '" ++ text ++ "'"
  | unknownOption text => "unexpected option '" ++ text ++ "'"
  | missingValue option => "a value is required for '--" ++ option ++ "'"
  | unexpectedValue option => "'--" ++ option ++ "' takes no value"
  | repeatedOption option => "'--" ++ option ++ "' cannot be used twice"
  | missingOption option => "'--" ++ option ++ "' is required"
  | invalidValue option value => "invalid value '" ++ value ++ "' for '--" ++ option ++ "'"

/-- What a command line asks for. -/
inductive Request where
  | command (c : Command)
  | help

namespace Arguments

/-! ### Options -/

structure Spec where
  name : String
  letter : Option Char := none
  /-- The option has a value. -/
  valued : Bool := true
  deriving DecidableEq, Repr

/-- The option that every command has. -/
def helpSpec : Spec := { name := "help", letter := some 'h', valued := false }

/-- The options on how datasets are written. -/
def writeSpecs : List Spec := [{ name := "style" }, { name := "atomic", valued := false }]

def generateSpecs : List Spec :=
  [{ name := "output", letter := some 'o' }, { name := "count", letter := some 'n' }]
    ++ writeSpecs ++ [helpSpec]

def presetsSpecs : List Spec :=
  [{ name := "output-dir", letter := some 'd' }, { name := "only" },
    { name := "include-disabled", valued := false }, { name := "create-dir", valued := false },
    { name := "preset-file" }] ++ writeSpecs ++ [helpSpec]

def verifySpecs : List Spec :=
  [{ name := "input", letter := some 'i' }, { name := "count", letter := some 'n' }, helpSpec]

def listSpecs : List Spec := [{ name := "preset-file" }, helpSpec]

/-! ### Scanning -/

/-- The options that are given, each with its value. -/
abbrev Given := List (String × String)

/-- The argument would be read as an option. -/
def looksLikeOption (arg : String) : Bool :=
  match arg.toList with
  | '-' :: _ :: _ => true
  | _ => false

/-- What follows an option that takes its value from the next argument. -/
inductive Pending where
  /-- Nothing: the argument is complete. -/
  | complete
  /-- The value of an option. -/
  | value (option : String)
  /-- The rest of the command line does not matter. -/
  | stop

/-- The options of an argument with a long name, the dashes removed. -/
def scanLong (specs : List Spec) (text : List Char) : Except UsageError (Given × Pending) :=
  let name := String.ofList (text.takeWhile (· ≠ '='))
  let value? := match text.dropWhile (· ≠ '=') with
    | [] => none
    | _ :: value => some (String.ofList value)
  match specs.find? fun s => s.name = name with
  | none => .error (.unknownOption ("--" ++ name))
  | some s =>
    match s.valued, value? with
    | true, some value => .ok ([(s.name, value)], .complete)
    | true, none => .ok ([], .value s.name)
    | false, some _ => .error (.unexpectedValue s.name)
    | false, none => .ok ([(s.name, "")], if s = helpSpec then .stop else .complete)

/-- The options of an argument with letters, the dash removed. -/
def scanLetters (specs : List Spec) : List Char → Except UsageError (Given × Pending)
  | [] => .ok ([], .complete)
  | c :: rest =>
    match specs.find? fun s => s.letter = some c with
    | none => .error (.unknownOption ("-" ++ String.ofList [c]))
    | some s =>
      if s.valued then
        match rest with
        | [] => .ok ([], .value s.name)
        | '=' :: value => .ok ([(s.name, String.ofList value)], .complete)
        | value => .ok ([(s.name, String.ofList value)], .complete)
      else if s = helpSpec then .ok ([(s.name, "")], .stop)
      else
        match scanLetters specs rest with
        | .error e => .error e
        | .ok (given, pending) => .ok ((s.name, "") :: given, pending)

/-- The options of one argument. -/
def scanOne (specs : List Spec) (arg : String) : Except UsageError (Given × Pending) :=
  match arg.toList with
  | '-' :: '-' :: text => scanLong specs text
  | '-' :: c :: text => scanLetters specs (c :: text)
  | _ => .error (.unexpectedArgument arg)

/-- The options that are given, in order. -/
def scan (specs : List Spec) : List String → Except UsageError Given
  | [] => .ok []
  -- two dashes end the options, and there are no arguments of another kind
  | ["--"] => .ok []
  | "--" :: arg :: _ => .error (.unexpectedArgument arg)
  | arg :: rest =>
    match scanOne specs arg with
    | .error e => .error e
    | .ok (given, .stop) => .ok given
    | .ok (given, .complete) => (scan specs rest).map (given ++ ·)
    | .ok (given, .value option) =>
      match rest with
      | [] => .error (.missingValue option)
      | value :: rest =>
        if looksLikeOption value then .error (.missingValue option)
        else (scan specs rest).map fun more => given ++ (option, value) :: more

/-! ### Values -/

/-- All values of an option. -/
def values (given : Given) (option : String) : List String :=
  (given.filter fun g => g.1 = option).map (·.2)

/-- The value of an option that may be given once. -/
def single? (given : Given) (option : String) : Except UsageError (Option String) :=
  match values given option with
  | [] => .ok none
  | [v] => .ok (some v)
  | _ => .error (.repeatedOption option)

/-- The option is given, which it may be once. -/
def flag (given : Given) (option : String) : Except UsageError Bool := do
  return (← single? given option).isSome

/-- The value of an option that has to be given. -/
def required (given : Given) (option : String) : Except UsageError String := do
  match ← single? given option with
  | some v => .ok v
  | none => .error (.missingOption option)

/-- A path, which may not be empty. -/
def path (option value : String) : Except UsageError Path :=
  if value = "" then .error (.missingValue option) else .ok ⟨value⟩

/-- The number that a text of digits stands for, a plus sign before it apart. -/
def number? (value : String) : Option Nat :=
  let digits := match value.toList with
    | '+' :: rest => rest
    | s => s
  if digits.isEmpty || !digits.all Char.isDigit then none
  else
    let n := digits.foldl (fun n d => n * 10 + (d.toNat - 0x30)) 0
    if n < UInt64.size then some n else none

/-- The number of persons that a text stands for. -/
def number (value : String) : Except UsageError Nat :=
  match number? value with
  | some n => .ok n
  | none => .error (.invalidValue "count" value)

def count (given : Given) : Except UsageError Nat := do
  number (← required given "count")

/-- The options on how datasets are written. -/
def write (given : Given) : Except UsageError WriteOptions := do
  let atomic ← flag given "atomic"
  match ← single? given "style" with
  | none => .ok { atomic }
  | some "compact" => .ok { style := .compact, atomic }
  | some "spaced" => .ok { style := .spaced, atomic }
  | some value => .error (.invalidValue "style" value)

/-- A path that may be given by an option or else by a variable of the environment. -/
def pathOr (environment : String → Option String) (given : Given) (option variableName : String) :
    Except UsageError (Option Path) := do
  match (← single? given option) <|> environment variableName with
  | none => .ok none
  | some value => (path option value).map some

def source (environment : String → Option String) (given : Given) :
    Except UsageError (Option Path) :=
  pathOr environment given "preset-file" "GENDATA_PRESET_FILE"

/-! ### Commands -/

def generate (given : Given) : Except UsageError Command := do
  let output ← path "output" (← required given "output")
  return .generate output (← count given) (← write given)

def presets (environment : String → Option String) (given : Given) :
    Except UsageError Command := do
  let outputDirectory ← pathOr environment given "output-dir" "GENDATA_OUTPUT_DIR"
  let includeDisabled ← flag given "include-disabled"
  let createDirectory ← flag given "create-dir"
  let source ← source environment given
  let write ← write given
  let only := (values given "only").flatMap fun v => v.splitOn ","
  return .presets
    { outputDirectory, only, includeDisabled, createDirectory, source, write }

def verify (given : Given) : Except UsageError Command := do
  let input ← path "input" (← required given "input")
  return .verify input (← count given)

/-- The options that are given are right as far as they go; none of them has to be there. -/
def check (given : Given) : Except UsageError Unit := do
  for option in ["output", "output-dir", "input", "preset-file"] do
    let _ ← (← single? given option).mapM (path option)
  let _ ← (← single? given "count").mapM number
  for option in ["include-disabled", "create-dir"] do
    let _ ← flag given option
  let _ ← write given

/-- What the options of a command ask for.  The options before one that asks for help have to be
right, but none of them has to be there. -/
def request (specs : List Spec) (command : Given → Except UsageError Command)
    (args : List String) : Except UsageError Request := do
  let given ← scan specs args
  if (values given helpSpec.name).isEmpty then return .command (← command given)
  else
    check given
    return .help

/-- The names that help can be asked on. -/
def topics : List String := ["generate", "presets", "verify", "list-presets", "help"]

/-- What a request for help asks for: all commands, or one of them. -/
def help : List String → Except UsageError Request
  | [] => .ok .help
  | [name] => if topics.contains name then .ok .help else .error (.unknownCommand name)
  | name :: extra :: _ =>
    .error (.unknownCommand (if topics.contains name then extra else name))

/-- **The command of a command line.** -/
def parse (environment : String → Option String) : List String → Except UsageError Request
  | [] => .error .noCommand
  | "generate" :: args => request generateSpecs generate args
  | "presets" :: args => request presetsSpecs (presets environment) args
  | "verify" :: args => request verifySpecs verify args
  | "list-presets" :: args =>
    request listSpecs (fun given => return .listPresets (← source environment given)) args
  | "help" :: args => help args
  | "--help" :: _ | "-h" :: _ => .ok .help
  | name :: _ =>
    .error (if looksLikeOption name then .unknownOption name else .unknownCommand name)

def helpText : String :=
  "Generate deterministic JSON person datasets for testing and benchmarking\n\n"
    ++ "generate      --output PATH --count N [--style compact|spaced] [--atomic]\n"
    ++ "presets       [--output-dir PATH] [--only NAMES] [--include-disabled] [--create-dir]\n"
    ++ "              [--preset-file PATH] [--style compact|spaced] [--atomic]\n"
    ++ "verify        --input PATH --count N\n"
    ++ "list-presets  [--preset-file PATH]\n"

end Arguments

end Roster
