/-
**The text of a JSON value.**

A value is written as a sequence of *pieces*, in the order in which they reach a sink: brackets,
separators, quotes, numbers and words are one piece each, and so is every stretch of a string that
needs no escape, and every escape.  The text is the pieces put together.  There are two layouts,
which differ in two separators only.

Main definitions:

* `Roster.Json.Style` — the layouts: nothing between tokens, or a space after each comma and
  colon;
* `Roster.Json.escape?` — the escape of a byte that may not stand in a string;
* `Roster.Json.Value.pieces` — the pieces of a value;
* `Roster.Json.Value.text` — **the text of a value**.

Main results:

* `Roster.Json.stringPieces_flatten` — a string is its bytes with the escapes put in, between
  quotes.
-/

import Roster.Bytes
import Roster.Double.Text
import Roster.Json.Value

set_option relaxedAutoImplicit false
set_option autoImplicit false

namespace Roster.Json

/-! ### Layouts -/

/-- The layout of a value. -/
inductive Style where
  /-- No space anywhere. -/
  | compact
  /-- A space after each comma and each colon. -/
  | spaced
  deriving DecidableEq, Inhabited, Repr

namespace Style

def name : Style → String
  | compact => "compact"
  | spaced => "spaced"

/-- What stands between two members or items. -/
def separator : Style → Bytes
  | compact => [0x2c]
  | spaced => [0x2c, 0x20]

/-- What stands between a key and its value. -/
def colon : Style → Bytes
  | compact => [0x3a]
  | spaced => [0x3a, 0x20]

end Style

/-! ### Strings -/

/-- The escape of a byte that may not stand in a string as it is: quote, backslash and the
controls below the space. -/
def escape? (b : UInt8) : Option Bytes :=
  if b = 0x22 then some [0x5c, 0x22]
  else if b = 0x5c then some [0x5c, 0x5c]
  else if b = 0x08 then some [0x5c, 0x62]
  else if b = 0x0c then some [0x5c, 0x66]
  else if b = 0x0a then some [0x5c, 0x6e]
  else if b = 0x0d then some [0x5c, 0x72]
  else if b = 0x09 then some [0x5c, 0x74]
  else if b < 0x20 then
    some [0x5c, 0x75, 0x30, 0x30, hexDigit (b.toNat / 16), hexDigit (b.toNat % 16)]
  else none

/-- The bytes that a byte is written as within a string. -/
def escaped (b : UInt8) : Bytes := (escape? b).getD [b]

/-- A piece of the bytes gathered so far, the last one first, unless there are none. -/
def stretch (run : Bytes) : List Bytes := if run.isEmpty then [] else [run.reverse]

/-- The pieces between the quotes of a string, `run` being the stretch before them. -/
def contentPieces (run : Bytes) : Bytes → List Bytes
  | [] => stretch run
  | b :: rest =>
    match escape? b with
    | none => contentPieces (b :: run) rest
    | some e => stretch run ++ e :: contentPieces [] rest

/-- The pieces of a string. -/
def stringPieces (s : String) : List Bytes :=
  [0x22] :: contentPieces [] (utf8 s) ++ [[0x22]]

@[simp] theorem stretch_flatten (run : Bytes) : (stretch run).flatten = run.reverse := by
  cases run <;> simp [stretch]

theorem contentPieces_flatten (run s : Bytes) :
    (contentPieces run s).flatten = run.reverse ++ s.flatMap escaped := by
  induction s generalizing run with
  | nil => simp [contentPieces]
  | cons b s ih =>
    cases h : escape? b with
    | none => simp [contentPieces, h, ih, escaped]
    | some e => simp [contentPieces, h, ih, escaped]

/-- A string is its bytes with the escapes put in, between quotes. -/
theorem stringPieces_flatten (s : String) :
    (stringPieces s).flatten = 0x22 :: ((utf8 s).flatMap escaped ++ [0x22]) := by
  simp [stringPieces, contentPieces_flatten]

/-! ### Numbers -/

/-- The text of a finite double: the fewest digits that read back, plain for decimal exponents
from -5 to 15 and with at least one digit after the point, else with an exponent. -/
def doubleText (x : Double) : Bytes :=
  let sign : Bytes := if x.isNegative then [0x2d] else []
  if x.isZero then sign ++ utf8 "0.0"
  else
    let (c, k) := x.shortest
    let digits := decimal c
    let exponent : Int := k + digits.length - 1
    let body : Bytes :=
      if 0 ≤ k ∧ exponent ≤ 15 then digits ++ List.replicate k.toNat 0x30 ++ utf8 ".0"
      else if 0 ≤ exponent ∧ exponent ≤ 15 then
        digits.take (exponent.toNat + 1) ++ 0x2e :: digits.drop (exponent.toNat + 1)
      else if -5 ≤ exponent ∧ exponent < 0 then
        utf8 "0." ++ List.replicate (-exponent - 1).toNat 0x30 ++ digits
      else
        let mantissa := match digits with
          | [d] => [d]
          | d :: rest => d :: 0x2e :: rest
          | [] => []
        let exponentSign : UInt8 := if exponent < 0 then 0x2d else 0x2b
        mantissa ++ 0x65 :: exponentSign :: decimal exponent.natAbs
    sign ++ body

def Number.text : Number → Bytes
  | .integer n => signedDecimal n
  | .double x => doubleText x

/-! ### Values -/

mutual

/-- The pieces of a value, in the order in which they are written. -/
def Value.pieces (style : Style) : Value → List Bytes
  | .null => [utf8 "null"]
  | .bool true => [utf8 "true"]
  | .bool false => [utf8 "false"]
  | .number n => [n.text]
  | .string s => stringPieces s
  | .array items => [0x5b] :: itemPieces style true items ++ [[0x5d]]
  | .object members => [0x7b] :: memberPieces style true members ++ [[0x7d]]

/-- The pieces of the items of an array, a separator before each but the first. -/
def itemPieces (style : Style) (first : Bool) : List Value → List Bytes
  | [] => []
  | v :: rest =>
    (if first then [] else [style.separator]) ++ v.pieces style ++ itemPieces style false rest

/-- The pieces of the members of an object, a separator before each but the first. -/
def memberPieces (style : Style) (first : Bool) : List (String × Value) → List Bytes
  | [] => []
  | (k, v) :: rest =>
    (if first then [] else [style.separator]) ++ stringPieces k ++ style.colon ::
      v.pieces style ++ memberPieces style false rest

end

/-- **The text of a value.** -/
def Value.text (style : Style) (v : Value) : Bytes := (v.pieces style).flatten

/-- The compact text of a value, as a text; the bytes of a value are always UTF-8. -/
def Value.compact (v : Value) : String := (text? (v.text .compact)).getD ""

end Roster.Json
