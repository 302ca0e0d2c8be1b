/-
**Reading a text character by character.**

A cursor is the part of a text that is still to be read, together with the place where it begins.

Main definitions:

* `Roster.Yaml.isBlank`, `isBreak`, `isWord` — the classes of characters;
* `Roster.Yaml.Cursor` — an unread text and its place;
* `Roster.Yaml.Cursor.skipWhile`, `Cursor.skipBreak` — moving it.
-/

import Roster.Yaml.Fault

set_option relaxedAutoImplicit false
set_option autoImplicit false

namespace Roster.Yaml

/-! ### Classes of characters -/

/-- A space or a tab. -/
def isBlank (c : Char) : Bool := c = ' ' || c = '\t'

/-- A character that ends a line. -/
def isBreak (c : Char) : Bool :=
  c = '\r' || c = '\n' || c = '\u0085' || c = '\u2028' || c = '\u2029'

/-- A blank or the end of a line. -/
def isGap (c : Char) : Bool := isBlank c || isBreak c

/-- A character of a name: a letter, a digit, a dash or an underscore. -/
def isWord (c : Char) : Bool := c.isAlphanum || c = '-' || c = '_'

/-- The value of a hexadecimal digit. -/
def hexDigit? (c : Char) : Option Nat :=
  if c.isDigit then some (c.toNat - 0x30)
  else if 'a' ≤ c && c ≤ 'f' then some (c.toNat - 0x57)
  else if 'A' ≤ c && c ≤ 'F' then some (c.toNat - 0x37)
  else none

/-- The character may stand in a text: controls, apart from those that blank or end a line, may
not. -/
def isPrintable (c : Char) : Bool :=
  c = '\t' || c = '\n' || c = '\r' || c = '\u0085' || (' ' ≤ c && c ≤ '~')
    || ('\u00a0' ≤ c && c ≤ '\ud7ff') || ('\ue000' ≤ c && c ≤ '\ufffd') || 0x10000 ≤ c.toNat

/-! ### The start of an unread text -/

/-- The text is at its end, or its first character has a property. -/
def endsOr (p : Char → Bool) : List Char → Bool
  | [] => true
  | c :: _ => p c

/-- The first character is a given one. -/
def startsWith (c : Char) : List Char → Bool
  | [] => false
  | d :: _ => d = c

/-- The text starts with three times a character, alone on its line or before a gap. -/
def startsWithMarker (c : Char) : List Char → Bool
  | a :: b :: d :: rest => a = c && b = c && d = c && endsOr isGap rest
  | _ => false

/-- The text starts with the marker that begins or the one that ends a document. -/
def startsDocument (s : List Char) : Bool := startsWithMarker '-' s || startsWithMarker '.' s

/-- What the line break at the start of a text stands for: all but two kinds are one and the
same. -/
def breakText : List Char → List Char
  | [] => []
  | c :: _ => if c = '\u2028' || c = '\u2029' then [c] else ['\n']

/-! ### Cursors -/

/-- An unread text and its place. -/
structure Cursor where
  rest : List Char
  mark : Mark := {}
  deriving DecidableEq, Inhabited, Repr

namespace Cursor

/-- The cursor after so many characters, each of them a single byte that does not end a line. -/
def skip (c : Cursor) (k : Nat) : Cursor := ⟨c.rest.drop k, c.mark.advance k⟩

/-- The characters with a property at the start of a text. -/
def span (c : Cursor) (p : Char → Bool) : List Char := c.rest.takeWhile p

/-- The cursor after the characters with a property, none of which ends a line. -/
def skipWhile (c : Cursor) (p : Char → Bool) : Cursor :=
  ⟨c.rest.dropWhile p, c.mark.past (c.span p)⟩

/-- The cursor after a line break, if there is one. -/
def skipBreak (c : Cursor) : Cursor :=
  match c.rest with
  | '\r' :: '\n' :: rest => ⟨rest, c.mark.breakLine 2⟩
  | d :: rest => if isBreak d then ⟨rest, c.mark.breakLine d.utf8Size⟩ else c
  | [] => c

/-- The cursor after a comment, if there is one. -/
def skipComment (c : Cursor) : Cursor :=
  if startsWith '#' c.rest then c.skipWhile fun d => !isBreak d else c

end Cursor

end Roster.Yaml
