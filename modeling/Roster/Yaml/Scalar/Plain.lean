/-
**Plain scalars.**

A plain scalar is a run of words without quotes.  It ends before a colon or a comment that follows
a blank, before a marker at the start of a line, before a line that is not indented far enough, and
within brackets also before the characters that structure them.

Main definitions:

* `Roster.Yaml.Plain.read` — reads a plain scalar.
-/

import Roster.Yaml.Scalar

set_option relaxedAutoImplicit false
set_option autoImplicit false

namespace Roster.Yaml.Plain

/-- Where a plain scalar stands. -/
structure Setting where
  /-- It stands within brackets. -/
  flow : Bool
  /-- How far its later lines have to be indented. -/
  indent : Nat
  start : Mark

/-- A plain scalar that was read. -/
structure Result where
  text : String
  /-- It was followed by a line break. -/
  broken : Bool
  /-- The text after it. -/
  after : Cursor

/-- A character that structures what is within brackets. -/
def isBracket (c : Char) : Bool := c = ',' || c = '[' || c = ']' || c = '\x7b' || c = '\x7d'

/-- Within brackets, a text that starts with a colon before a bracket. -/
def startsBadColon (flow : Bool) : List Char → Bool
  | ':' :: c :: _ => flow && (isBracket c || c = '?')
  | _ => false

/-- The text starts with a character that ends a plain scalar. -/
def startsEnd (flow : Bool) : List Char → Bool
  | ':' :: rest => endsOr isGap rest
  | c :: _ => flow && isBracket c
  | [] => true

/-- After a gap, the text starts with something that is not part of the scalar. -/
def startsOther (s : Setting) (m : Mark) (rest : List Char) : Bool :=
  (!s.flow && m.column < s.indent) || (m.column = 0 && startsDocument rest)
    || startsWith '#' rest

/-- The scalar, once it is complete; its words are collected backwards. -/
def finish (words : List Char) (gap : Gap) (after : Cursor) : Result :=
  { text := String.ofList words.reverse, broken := gap.isBroken, after }

/-- Reads on, the words so far being given backwards, with the gap after them. -/
def readOn (s : Setting) (words : List Char) (gap : Gap) (m : Mark) :
    List Char → Except Fault Result
  | [] => .ok (finish words gap ⟨[], m⟩)
  | '\r' :: '\n' :: rest => readOn s words (gap.addBreak ['\n']) (m.breakLine 2) rest
  | c :: rest =>
    if isBreak c then
      readOn s words (gap.addBreak (breakText (c :: rest))) (m.breakLine c.utf8Size) rest
    else if isBlank c then
      if c = '\t' && gap.isBroken && m.column < s.indent then
        .error (.during .plain s.start .tabAsIndentation m)
      else readOn s words (gap.addBlank c) (m.next c) rest
    else if !gap.isEmpty && startsOther s m (c :: rest) then
      .ok (finish words gap ⟨c :: rest, m⟩)
    else if startsBadColon s.flow (c :: rest) then
      .error (.during .plain s.start .colonBeforeBracket m)
    else if startsEnd s.flow (c :: rest) then .ok (finish words gap ⟨c :: rest, m⟩)
    else readOn s (c :: (gap.text.reverse ++ words)) .empty (m.next c) rest

def read (flow : Bool) (indent : Nat) (c : Cursor) : Except Fault Result :=
  readOn { flow, indent, start := c.mark } [] .empty c.mark c.rest

end Roster.Yaml.Plain
