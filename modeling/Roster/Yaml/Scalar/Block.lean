/-
**Block scalars.**

A block scalar begins with a header: how it treats its line breaks, and perhaps how far its lines
are indented.  Its lines follow, all of them indented the same; the first line that is not empty
fixes the indentation if the header does not.  A literal block keeps its line breaks; a folded one
reads a single break between two lines that start with no blank as a space.

Main definitions:

* `Roster.Yaml.Block.read` — reads a block scalar.
-/

import Roster.Yaml.Scalar

set_option relaxedAutoImplicit false
set_option autoImplicit false

namespace Roster.Yaml.Block

/-- What becomes of the line breaks at the end of a block. -/
inductive Chomping where
  /-- None is kept. -/
  | strip
  /-- The first is kept. -/
  | clip
  /-- All are kept. -/
  | keep
  deriving DecidableEq, Inhabited, Repr

/-- The header of a block scalar. -/
structure Header where
  /-- What becomes of the line breaks at its end. -/
  chomping : Chomping := .clip
  /-- How much further than its surroundings it is indented; zero if the header does not say. -/
  indent : Nat := 0
  deriving DecidableEq, Inhabited, Repr

/-- Reads what the header says on line breaks, if it says anything. -/
def readChomping (c : Cursor) : Option Chomping × Cursor :=
  match c.rest with
  | '+' :: _ => (some .keep, c.skip 1)
  | '-' :: _ => (some .strip, c.skip 1)
  | _ => (none, c)

/-- Reads what the header says on indentation, if it says anything. -/
def readIndent (start : Mark) (c : Cursor) : Except Fault (Nat × Cursor) :=
  match c.rest with
  | '0' :: _ => .error (.during .block start .zeroIndentation c.mark)
  | d :: _ => if d.isDigit then .ok (d.toNat - 0x30, c.skip 1) else .ok (0, c)
  | [] => .ok (0, c)

/-- Reads a header: its two parts come in either order. -/
def readHeader (start : Mark) (c : Cursor) : Except Fault (Header × Cursor) :=
  match readChomping c with
  | (some chomping, c) =>
    match readIndent start c with
    | .error e => .error e
    | .ok (indent, c) => .ok ({ chomping, indent }, c)
  | (none, c) =>
    match readIndent start c with
    | .error e => .error e
    | .ok (0, c) => .ok ({}, c)
    | .ok (indent, c) =>
      match readChomping c with
      | (chomping, c) => .ok ({ chomping := chomping.getD .clip, indent }, c)

/-- Goes on to the line after the header. -/
def skipHeaderLine (start : Mark) (c : Cursor) : Except Fault Cursor :=
  let c := (c.skipWhile isBlank).skipComment
  if endsOr isBreak c.rest then .ok c.skipBreak
  else .error (.during .block start .missingLineEnd c.mark)

/-- What has been read of a block. -/
structure Progress where
  /-- How far its lines are indented; zero if that is not yet known. -/
  indent : Nat
  /-- The largest indentation met before that is known. -/
  widest : Nat := 0
  /-- Its text, backwards. -/
  text : List Char := []
  /-- The break that ended the last line. -/
  first : List Char := []
  /-- The breaks of the empty lines after it. -/
  more : List Char := []
  /-- The last line started with a blank. -/
  spaced : Bool := false
  deriving Inhabited

/-- The indentation, as far as it can be known at a line that is not empty. -/
def Progress.settle (p : Progress) (least column : Nat) : Progress :=
  if p.indent = 0 then { p with indent := max (max p.widest column) (max least 1) } else p

/-- Begins a line: the breaks before it are folded or kept. -/
def Progress.beginLine (p : Progress) (fold : Bool) (c : Char) : Progress :=
  let joint :=
    if fold && startsWith '\n' p.first && !p.spaced && !isBlank c then
      if p.more.isEmpty then [' '] else p.more
    else p.first ++ p.more
  { p with
    text := c :: (joint.reverse ++ p.text), first := [], more := [], spaced := isBlank c }

/-- The text of a block that is complete. -/
def Progress.finish (p : Progress) (chomping : Chomping) : String :=
  String.ofList <| p.text.reverse ++
    match chomping with
    | .strip => []
    | .clip => p.first
    | .keep => p.first ++ p.more

/-- Reads on, at the end of a line or within one. -/
def readOn (fold : Bool) (chomping : Chomping) (least : Nat) (start : Mark) (inLine : Bool)
    (p : Progress) (m : Mark) : List Char → Except Fault (String × Cursor)
  | [] => .ok (p.finish chomping, ⟨[], m⟩)
  | '\r' :: '\n' :: rest =>
    let p := if inLine then { p with first := ['\n'] }
      else { p with widest := max p.widest m.column, more := p.more ++ ['\n'] }
    readOn fold chomping least start false p (m.breakLine 2) rest
  | c :: rest =>
    if isBreak c then
      let text := breakText (c :: rest)
      let p := if inLine then { p with first := text }
        else { p with widest := max p.widest m.column, more := p.more ++ text }
      readOn fold chomping least start false p (m.breakLine c.utf8Size) rest
    else if inLine then
      readOn fold chomping least start true { p with text := c :: p.text } (m.next c) rest
    else if (p.indent = 0 || m.column < p.indent) && c = ' ' then
      readOn fold chomping least start false p (m.next c) rest
    else if (p.indent = 0 || m.column < p.indent) && c = '\t' then
      .error (.during .block start .tabInIndentation m)
    else
      let p := p.settle least m.column
      if m.column = p.indent then
        readOn fold chomping least start true (p.beginLine fold c) (m.next c) rest
      else .ok (p.finish chomping, ⟨c :: rest, m⟩)

/-- Reads a block scalar, the cursor being at the character that announces it.  The indentation is
that of its surroundings, if they have any. -/
def read (fold : Bool) (indent : Option Nat) (c : Cursor) : Except Fault (String × Cursor) := do
  let start := c.mark
  let (header, c) ← readHeader start (c.skip 1)
  let c ← skipHeaderLine start c
  let indent' := if header.indent = 0 then 0 else indent.getD 0 + header.indent
  let least := match indent with
    | some i => i + 1
    | none => 0
  readOn fold header.chomping least start false { indent := indent' } c.mark c.rest

end Roster.Yaml.Block
