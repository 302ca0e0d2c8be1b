/-
**Documents.**

A document is the list of its entries: scalars, aliases, and the two ends of its sequences and
mappings.  Entries that carry an anchor can be reached again through aliases.  An anchor gets a
number, the number of names in use so far, and an alias leads to the last entry of that number.

A text that turns out to be malformed still has the entries before its fault, so a reader that
does not need more than those finds its own errors first.

Main definitions:

* `Roster.Yaml.Entry`, `Roster.Yaml.Document` — entries and documents;
* `Roster.Yaml.Document.read` — the first document of a text, and whether there is more.
-/

import Roster.Yaml.Event
import Roster.Yaml.Issue

set_option relaxedAutoImplicit false
set_option autoImplicit false

namespace Roster.Yaml

/-- What an entry of a document is. -/
inductive Entry.Kind where
  /-- A text without any document. -/
  | void
  /-- An alias, with the number of its anchor. -/
  | aliasNode (number : Nat)
  | scalar (s : Scalar)
  | sequenceStart
  | sequenceEnd
  | mappingStart
  | mappingEnd
  deriving DecidableEq, Repr

structure Entry where
  kind : Entry.Kind
  /-- Where it begins. -/
  mark : Mark
  deriving DecidableEq, Repr

structure Document where
  entries : List Entry
  /-- How many entries lie before the one that a number leads to, the last anchor first. -/
  targets : List (Nat × Nat) := []
  /-- Why there are no more entries, if the document is not complete. -/
  error : Option Error := none
  size : Nat := entries.length
  size_eq : size = entries.length := by rfl

/-- What is known while the entries of a document are collected, the last one first. -/
structure Collector where
  entries : List Entry := []
  size : Nat := 0
  numbers : List (String × Nat) := []
  /-- Where the numbers lead. -/
  targets : List (Nat × Nat) := []

namespace Collector

/-- The document that has been collected. -/
def finish (c : Collector) (error : Option Error) : Document :=
  { entries := c.entries.reverse, targets := c.targets, error }

def push (c : Collector) (kind : Entry.Kind) (mark : Mark) : Collector :=
  { c with entries := ⟨kind, mark⟩ :: c.entries, size := c.size + 1 }

/-- Numbers the anchor of the next entry. -/
def define (c : Collector) : Option String → Collector
  | none => c
  | some name =>
    let number := c.numbers.length
    { c with
      numbers := (name, number) :: c.numbers.filter fun a => a.1 ≠ name
      targets := (number, c.size) :: c.targets }

/-- Collects the entries of the first document of some events.  With it comes whether there is
anything after it but the end of the text. -/
def collect (c : Collector) (fault : Option Fault) : List Event → Document × Bool
  | [] => (c.finish (fault.map .fault), false)
  | ⟨kind, mark⟩ :: rest =>
    match kind with
    | .streamEnd => ((if c.size = 0 then c.push .void mark else c).finish none, false)
    | .documentStart => collect c fault rest
    | .documentEnd => (c.finish none, rest.head?.all fun e => e.kind ≠ .streamEnd)
    | .aliasNode name =>
      match c.numbers.lookup name with
      | some number => collect (c.push (.aliasNode number) mark) fault rest
      | none => (c.finish (some (.unknownAnchor mark)), false)
    | .scalar anchor s => collect ((c.define anchor).push (.scalar s) mark) fault rest
    | .sequenceStart anchor => collect ((c.define anchor).push .sequenceStart mark) fault rest
    | .sequenceEnd => collect (c.push .sequenceEnd mark) fault rest
    | .mappingStart anchor => collect ((c.define anchor).push .mappingStart mark) fault rest
    | .mappingEnd => collect (c.push .mappingEnd mark) fault rest

end Collector

namespace Document

/-- The first document of a text, and whether there is anything after it. -/
def read (s : String) : Document × Bool :=
  let events := events s.toList
  Collector.collect {} events.fault events.items

/-- Why there are no more entries. -/
def ended (d : Document) : Error := d.error.getD .ended

/-- The entries from the one on that a number leads to. -/
def target (d : Document) (number : Nat) : List Entry :=
  match d.targets.lookup number with
  | some k => d.entries.drop k
  | none => []

end Document

end Roster.Yaml
