/-
**Anchors, tags and directives.**

Before a node may stand an anchor, which names it for later aliases, and a tag, which says what it
is.  A tag is written in full between angle brackets, or as a handle with a suffix; directives at
the start of a document say what the handles stand for and which version of the language is used.

Main definitions:

* `Roster.Yaml.Tag` — a tag as it is written, with `Roster.Yaml.readTag`;
* `Roster.Yaml.readAnchor` — reads an anchor or an alias;
* `Roster.Yaml.Directive`, `Roster.Yaml.readDirective` — directives.
-/

import Roster.Yaml.Cursor

set_option relaxedAutoImplicit false
set_option autoImplicit false

namespace Roster.Yaml

/-! ### Anchors -/

/-- A character that may follow an anchor. -/
def isAfterAnchor (c : Char) : Bool :=
  isGap c || c = '?' || c = ':' || c = ',' || c = ']' || c = '\x7d' || c = '%' || c = '@'
    || c = '\x60'

/-- Reads the name of an anchor or an alias, the cursor being at the character before it. -/
def readAnchor (context : Context) (c : Cursor) : Except Fault (String × Cursor) :=
  let c' := c.skip 1
  let name := c'.span isWord
  let c' := c'.skipWhile isWord
  if name.isEmpty || !endsOr isAfterAnchor c'.rest then
    .error (.during context c.mark .missingAnchorName c'.mark)
  else .ok (String.ofList name, c')

/-! ### The characters of tags -/

/-- A character of a tag; commas and brackets are among them only if `full`. -/
def isTagCharacter (full : Bool) (c : Char) : Bool :=
  isWord c || ";/?:@&=+$.!~*\x27()".toList.contains c || (full && ",[]".toList.contains c)

/-- How many octets a character has that starts with a given one. -/
def octetWidth? (octet : Nat) : Option Nat :=
  if octet < 0x80 then some 1
  else if octet < 0xc0 then none
  else if octet < 0xe0 then some 2
  else if octet < 0xf0 then some 3
  else if octet < 0xf8 then some 4
  else none

/-- Reads on in the characters of a tag; so many octets of the current character are still to come
as percent signs with two digits. -/
def readCharacters (full : Bool) (fail : Problem → Mark → Fault) (pending : Nat) (done : Bytes)
    (m : Mark) : List Char → Except Fault (Bytes × Cursor)
  | [] => if pending = 0 then .ok (done, ⟨[], m⟩) else .error (fail .missingOctet m)
  | '%' :: a :: b :: rest =>
    match hexDigit? a, hexDigit? b with
    | some high, some low =>
      let octet := high * 16 + low
      if pending = 0 then
        match octetWidth? octet with
        | none => .error (fail .invalidFirstOctet m)
        | some width =>
          readCharacters full fail (width - 1) (done ++ [octet.toUInt8]) (m.advance 3) rest
      else if octet / 64 = 2 then
        readCharacters full fail (pending - 1) (done ++ [octet.toUInt8]) (m.advance 3) rest
      else .error (fail .invalidLaterOctet m)
    | _, _ => .error (fail .missingOctet m)
  | c :: rest =>
    if pending ≠ 0 || c = '%' then .error (fail .missingOctet m)
    else if isTagCharacter full c then
      readCharacters full fail 0 (done ++ String.utf8EncodeChar c) (m.advance 1) rest
    else .ok (done, ⟨c :: rest, m⟩)

/-- What octets count for: a zero ends them. -/
def beforeZero (octets : Bytes) : Bytes := octets.takeWhile fun b => b ≠ 0

/-- Reads the characters of a tag, of which there has to be one at least. -/
def readSomeCharacters (full : Bool) (context : Context) (start : Mark) (c : Cursor) :
    Except Fault (Bytes × Cursor) :=
  match readCharacters full (.during context start) 0 [] c.mark c.rest with
  | .error e => .error e
  | .ok ([], c) => .error (.during context start .missingTagCharacters c.mark)
  | .ok (bytes, c) => .ok (beforeZero bytes, c)

/-! ### Handles and tags -/

/-- Reads a handle: a word between two exclamation marks, or a lone mark.  In a tag the second
mark may be missing, and what was read is then no handle. -/
def readHandle (directive : Bool) (start : Mark) (c : Cursor) :
    Except Fault (List Char × Bool × Cursor) :=
  match c.rest with
  | '!' :: _ =>
    let c := c.skip 1
    let word := c.span isWord
    let c := c.skipWhile isWord
    if startsWith '!' c.rest then .ok ('!' :: (word ++ ['!']), true, c.skip 1)
    else if directive && !word.isEmpty then
      .error (.during .handleEnd start .missingTagMark c.mark)
    else .ok ('!' :: word, false, c)
  | _ =>
    .error (.during (if directive then .handleStart else .tag) start .missingTagMark c.mark)

/-- A tag as it is written. -/
inductive Tag where
  | full (bytes : Bytes)
  | short (handle : String) (suffix : Bytes)
  deriving DecidableEq, Repr

/-- Reads a tag between angle brackets. -/
def readFullTag (start : Mark) (c : Cursor) : Except Fault (Tag × Cursor) := do
  let (bytes, c) ← readSomeCharacters true .tagCharacters start (c.skip 2)
  if startsWith '>' c.rest then .ok (.full bytes, c.skip 1)
  else .error (.during .tag start .missingTagEnd c.mark)

/-- Reads a tag with a handle; a lone exclamation mark is a tag by itself. -/
def readShortTag (start : Mark) (c : Cursor) : Except Fault (Tag × Cursor) := do
  let (handle, closed, c) ← readHandle false start c
  if closed then
    let (suffix, c) ← readSomeCharacters false .tagCharacters start c
    .ok (.short (String.ofList handle) suffix, c)
  else
    let word := utf8 (String.ofList (handle.drop 1))
    let (suffix, c) ← readCharacters false (.during .tagCharacters start) 0 word c.mark c.rest
    let suffix := beforeZero suffix
    .ok (if suffix.isEmpty then .full [0x21] else .short "!" suffix, c)

/-- Reads a tag; a blank follows it, or the end of the line, or a comma within brackets. -/
def readTag (flow : Bool) (c : Cursor) : Except Fault (Tag × Cursor) := do
  let start := c.mark
  let (tag, c) ← if startsWith '<' (c.rest.drop 1) then readFullTag start c
    else readShortTag start c
  if (flow && startsWith ',' c.rest) || endsOr isGap c.rest then .ok (tag, c)
  else .error (.during .tag start .missingBlankOrLineEnd c.mark)

/-! ### Directives -/

inductive Directive where
  | version (major minor : Nat)
  /-- What a handle stands for. -/
  | handle (handle : String) (expansion : Bytes)
  deriving DecidableEq, Repr

/-- The most digits that a version number may have. -/
def maxVersionDigits : Nat := 9

/-- Reads one number of a version. -/
def readVersionNumber (start : Mark) (c : Cursor) : Except Fault (Nat × Cursor) :=
  let digits := c.span Char.isDigit
  if digits.isEmpty then .error (.during .versionDirective start .missingVersionNumber c.mark)
  else if maxVersionDigits < digits.length then
    .error (.during .versionDirective start .longVersion (c.mark.advance maxVersionDigits))
  else
    .ok (digits.foldl (fun n d => n * 10 + (d.toNat - 0x30)) 0, c.skipWhile Char.isDigit)

def readVersion (start : Mark) (c : Cursor) : Except Fault (Directive × Cursor) := do
  let (major, c) ← readVersionNumber start (c.skipWhile isBlank)
  if startsWith '.' c.rest then
    let (minor, c) ← readVersionNumber start (c.skip 1)
    .ok (.version major minor, c)
  else .error (.during .versionDirective start .missingVersionDot c.mark)

/-- Reads a handle and what it stands for. -/
def readExpansion (start : Mark) (c : Cursor) : Except Fault (Directive × Cursor) := do
  let (handle, _, c) ← readHandle true start (c.skipWhile isBlank)
  match c.rest with
  | d :: _ =>
    if isBlank d then
      let (bytes, c) ←
        readSomeCharacters true .directiveCharacters start (c.skipWhile isBlank)
      if endsOr isGap c.rest then .ok (.handle (String.ofList handle) bytes, c)
      else .error (.during .tagDirective start .missingBlankOrLineEnd c.mark)
    else .error (.during .tagDirective start .missingBlank c.mark)
  | [] => .error (.during .tagDirective start .missingBlank c.mark)

def readDirectiveName (start : Mark) (c : Cursor) : Except Fault (String × Cursor) :=
  let name := c.span isWord
  let c := c.skipWhile isWord
  if name.isEmpty then .error (.during .directive start .missingDirectiveName c.mark)
  else if endsOr isGap c.rest then .ok (String.ofList name, c)
  else .error (.during .directive start .malformedDirectiveName c.mark)

/-- Reads a directive and the rest of its line, the cursor being at its percent sign. -/
def readDirective (c : Cursor) : Except Fault (Directive × Cursor) := do
  let start := c.mark
  let (name, c) ← readDirectiveName start (c.skip 1)
  let (directive, c) ←
    if name = "YAML" then readVersion start c
    else if name = "TAG" then readExpansion start c
    else .error (.during .directive start .unknownDirective c.mark)
  let c := (c.skipWhile isBlank).skipComment
  if endsOr isBreak c.rest then .ok (directive, c.skipBreak)
  else .error (.during .directive start .missingLineEnd c.mark)

end Roster.Yaml
