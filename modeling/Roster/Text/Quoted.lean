/-
**Quoted texts.**

Messages show a text between double quotes, in a form that is unambiguous on one line: quotes,
backslashes and the common controls are escaped by a letter, and a character that would not be
seen by itself is given by its code point.  In the quoted form of a path an apostrophe is escaped
as well.

Main definitions:

* `Roster.Quoted.text` — a text between quotes;
* `Roster.Quoted.path` — the text of a path between quotes.
-/

import Roster.Text.Ranges

set_option relaxedAutoImplicit false
set_option autoImplicit false

namespace Roster.Quoted

/-- The hexadecimal digits of a number. -/
def hex (n : Nat) : List Char := Nat.toDigits 16 n

/-- The escaped form of a character. -/
def escape (apostrophe : Bool) (c : Char) : List Char :=
  if c = '\x00' then ['\\', '0']
  else if c = '\t' then ['\\', 't']
  else if c = '\r' then ['\\', 'r']
  else if c = '\n' then ['\\', 'n']
  else if c = '\\' then ['\\', '\\']
  else if c = '\x22' then ['\\', '\x22']
  else if c = '\x27' then (if apostrophe then ['\\', '\x27'] else ['\x27'])
  else if 0x20 ≤ c.toNat ∧ c.toNat < 0x7f then [c]
  else if extending.has c || unprintable.has c then
    ['\\', 'u', '\x7b'] ++ hex c.toNat ++ ['\x7d']
  else [c]

/-- A text between quotes. -/
def text (s : String) : String :=
  String.ofList ('\x22' :: s.toList.flatMap (escape false) ++ ['\x22'])

def path (s : String) : String :=
  String.ofList ('\x22' :: s.toList.flatMap (escape true) ++ ['\x22'])

end Roster.Quoted
