/-
**Quoted scalars.**

A quoted scalar ends with the quote that it began with.  In single quotes a quote is written twice;
in double quotes it is written after a backslash, which also escapes line breaks and names
characters.

Main definitions:

* `Roster.Yaml.QuotedScalar.read` — reads a quoted scalar.
-/

import Roster.Yaml.Scalar

set_option relaxedAutoImplicit false
set_option autoImplicit false

namespace Roster.Yaml.QuotedScalar

/-- The character that a letter names after a backslash. -/
def named? (c : Char) : Option Char :=
  match c with
  | '0' => some '\x00'
  | 'a' => some '\x07'
  | 'b' => some '\x08'
  | 't' | '\t' => some '\t'
  | 'n' => some '\n'
  | 'v' => some '\x0b'
  | 'f' => some '\x0c'
  | 'r' => some '\r'
  | 'e' => some '\x1b'
  | ' ' => some ' '
  | '\x22' => some '\x22'
  | '/' => some '/'
  | '\\' => some '\\'
  | 'N' => some '\u0085'
  | '_' => some '\u00a0'
  | 'L' => some '\u2028'
  | 'P' => some '\u2029'
  | _ => none

/-- How many hexadecimal digits follow a letter after a backslash. -/
def hexWidth? (c : Char) : Option Nat :=
  match c with
  | 'x' => some 2
  | 'u' => some 4
  | 'U' => some 8
  | _ => none

/-- The number that hexadecimal digits stand for, after the digits that were read before. -/
def hexNumber? (value : Nat) : List Char → Option Nat
  | [] => some value
  | c :: rest =>
    match hexDigit? c with
    | none => none
    | some d => hexNumber? (value * 16 + d) rest

/-- The character that some hexadecimal digits name at the start of a text. -/
def numbered (start m : Mark) (width : Nat) (s : List Char) : Except Fault Char :=
  match hexNumber? 0 (s.take width) with
  | none => .error (.during .escape start .missingHexDigit m)
  | some n =>
    if s.length < width then .error (.during .escape start .missingHexDigit m)
    else if h : n.isValidChar then .ok (Char.ofNatAux n h)
    else .error (.during .escape start .invalidCodePoint m)

/-- What an escape at the start of a text stands for, and how many characters it has; the text is
that after the backslash, and the mark that of the backslash. -/
def escape (start m : Mark) : List Char → Except Fault (Char × Nat)
  | [] => .error (.during .escape start .unknownEscape m)
  | c :: rest =>
    match named? c, hexWidth? c with
    | some d, _ => .ok (d, 1)
    | none, some width =>
      match numbered start (m.advance 2) width rest with
      | .error e => .error e
      | .ok d => .ok (d, width + 1)
    | none, none => .error (.during .escape start .unknownEscape m)

/-- Reads on, the words so far being given backwards, with the gap after them. -/
def readOn (single : Bool) (start : Mark) (words : List Char) (gap : Gap) (m : Mark)
    (s : List Char) : Except Fault (String × Cursor) :=
  let quote : Char := if single then '\x27' else '\x22'
  if m.column = 0 && startsDocument s then .error (.during .quoted start .markerInQuotes m)
  else
    match s with
    | [] => .error (.during .quoted start .unclosedQuote m)
    | '\r' :: '\n' :: rest =>
      readOn single start words (gap.addBreak ['\n']) (m.breakLine 2) rest
    | c :: rest =>
      if isBreak c then
        let gap := gap.addBreak (breakText (c :: rest))
        readOn single start words gap (m.breakLine c.utf8Size) rest
      else if isBlank c then readOn single start words (gap.addBlank c) (m.advance 1) rest
      else
        let words := gap.text.reverse ++ words
        if c = quote then
          if single && startsWith quote rest then
            readOn single start (quote :: words) .empty (m.advance 2) (rest.drop 1)
          else .ok (String.ofList words.reverse, ⟨rest, m.advance 1⟩)
        else if !single && c = '\\' then
          match rest with
          | '\r' :: '\n' :: rest =>
            readOn single start words (.breaks [] []) ((m.advance 1).breakLine 2) rest
          | d :: rest' =>
            if isBreak d then
              readOn single start words (.breaks [] []) ((m.advance 1).breakLine d.utf8Size) rest'
            else
              match escape start m (d :: rest') with
              | .error e => .error e
              | .ok (e, k) =>
                readOn single start (e :: words) .empty (m.advance (k + 1)) ((d :: rest').drop k)
          | [] => .error (.during .escape start .unknownEscape m)
        else readOn single start (c :: words) .empty (m.next c) rest
termination_by s.length
decreasing_by all_goals simp <;> omega

/-- Reads a quoted scalar, the cursor being at its first quote. -/
def read (single : Bool) (c : Cursor) : Except Fault (String × Cursor) :=
  let c' := c.skip 1
  readOn single c.mark [] .empty c'.mark c'.rest

end Roster.Yaml.QuotedScalar
