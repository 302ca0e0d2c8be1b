/-
**What a scalar stands for.**

A scalar in quotes is a string.  A plain one may also stand for nothing, for a truth value or for a
number: integers may be written in base 16, 8 and 2, and without needless zeros in base 10.  A tag
for one of these kinds makes any scalar be read as that kind.

Main definitions:

* `Roster.Yaml.Meaning` — what a scalar, or any other node, stands for;
* `Roster.Yaml.truth?`, `isNull`, `natural?`, `negative?`, `double?` — the readers of each kind;
* `Roster.Yaml.Scalar.meaning` — **what a scalar stands for**.
-/

import Roster.Double.Text
import Roster.Text.Quoted
import Roster.Yaml.Scalar

set_option relaxedAutoImplicit false
set_option autoImplicit false

namespace Roster.Yaml

/-! ### Meanings -/

/-- What a node stands for. -/
inductive Meaning where
  | null
  | truth (b : Bool)
  /-- An integer of 64 bits. -/
  | integer (n : Int)
  /-- A longer natural number, of up to 128 bits. -/
  | longNatural (n : Nat)
  /-- A longer negative integer, of up to 128 bits. -/
  | longInteger (n : Int)
  /-- A double, in its decimal text. -/
  | double (text : String)
  | string (s : String)
  | sequence
  | mapping
  deriving DecidableEq, Inhabited, Repr

def Meaning.name : Meaning → String
  | null => "unit value"
  | truth b => "boolean `" ++ (if b then "true" else "false") ++ "`"
  | integer n => "integer `" ++ toString n ++ "`"
  | longNatural n => "integer `" ++ toString n ++ "` as u128"
  | longInteger n => "integer `" ++ toString n ++ "` as i128"
  | double text => "floating point `" ++ text ++ "`"
  | string s => "string " ++ Quoted.text s
  | sequence => "sequence"
  | mapping => "map"

/-! ### Words -/

/-- The text is a word for nothing. -/
def isNull (s : String) : Bool := s = "null" || s = "Null" || s = "NULL" || s = "~"

/-- The truth value that a text is a word for. -/
def truth? (s : String) : Option Bool :=
  if s = "true" || s = "True" || s = "TRUE" then some true
  else if s = "false" || s = "False" || s = "FALSE" then some false
  else none

/-! ### Integers -/

/-- The value of a digit in a base of up to sixteen. -/
def digit? (base : Nat) (c : Char) : Option Nat :=
  match hexDigit? c with
  | some d => if d < base then some d else none
  | none => none

/-- The number that some digits stand for, after those that were read before. -/
def readDigits (base value : Nat) : List Char → Option Nat
  | [] => some value
  | c :: rest =>
    match digit? base c with
    | some d => readDigits base (value * base + d) rest
    | none => none

/-- The number that a text of digits stands for. -/
def digits? (base : Nat) (s : List Char) : Option Nat :=
  if s.isEmpty then none else readDigits base 0 s

/-- The text begins with a sign. -/
def startsSigned (s : List Char) : Bool := startsWith '+' s || startsWith '-' s

/-- The text without a plus sign at its start. -/
def dropPlus : List Char → List Char
  | '+' :: rest => rest
  | s => s

/-- The base that a text announces, and the digits after the announcement. -/
def announced? : List Char → Option (Nat × List Char)
  | '0' :: 'x' :: rest => some (16, rest)
  | '0' :: 'o' :: rest => some (8, rest)
  | '0' :: 'b' :: rest => some (2, rest)
  | _ => none

/-- The text is a number with needless zeros before it. -/
def hasNeedlessZero (s : List Char) : Bool :=
  match (if startsSigned s then s.drop 1 else s) with
  | '0' :: d :: rest => (d :: rest).all Char.isDigit
  | _ => false

/-- The number that a text stands for in an announced base. -/
def announcedNumber? (s : List Char) : Option Nat :=
  match announced? s with
  | some (base, digits) => digits? base digits
  | none => none

/-- The natural number that a text stands for, if it is at most `limit`. -/
def natural? (limit : Nat) (s : List Char) : Option Nat :=
  let body := dropPlus s
  match announcedNumber? body with
  | some n => if n ≤ limit then some n else none
  -- zeros before a decimal number make it a string
  | none => if hasNeedlessZero s then none else (digits? 10 body).filter (· ≤ limit)

/-- The number that a text stands for after a minus sign, if it is at most `limit`. -/
def negative? (limit : Nat) : List Char → Option Nat
  | '-' :: body =>
    match announcedNumber? body with
    | some n => if n ≤ limit then some n else none
    | none => if hasNeedlessZero body then none else (digits? 10 body).filter (· ≤ limit)
  | _ => none

/-- The largest natural number of 64 bits. -/
def maxWord : Nat := UInt64.size - 1

/-- The negative integers of 64 bits reach down to this number. -/
def halfWord : Nat := UInt64.size / 2

/-- The largest natural number of 128 bits. -/
def maxDoubleWord : Nat := UInt64.size * UInt64.size - 1

/-- The negative integers of 128 bits reach down to this number. -/
def halfDoubleWord : Nat := UInt64.size * UInt64.size / 2

/-- The integer that a text stands for, of at most 128 bits. -/
def integer? (s : List Char) : Option Meaning :=
  match natural? maxWord s, negative? halfWord s with
  | some n, _ => some (.integer n)
  | none, some n => some (.integer (-(n : Int)))
  | none, none =>
    match natural? maxDoubleWord s, negative? halfDoubleWord s with
    | some n, _ => some (.longNatural n)
    | none, some n => some (.longInteger (-(n : Int)))
    | none, none => none

/-! ### Doubles -/

/-- The digits at the start of a text, and what follows them. -/
def splitDigits (s : List Char) : List Char × List Char :=
  (s.takeWhile Char.isDigit, s.dropWhile Char.isDigit)

/-- The exponent that a text stands for, the text being all that follows the digits. -/
def exponent? : List Char → Option Int
  | [] => some 0
  | c :: rest =>
    if c = 'e' || c = 'E' then
      let body := if startsSigned rest then rest.drop 1 else rest
      match digits? 10 body with
      | some n => some (if startsWith '-' rest then -(n : Int) else n)
      | none => none
    else none

/-- The digits of a decimal without its sign, and the power of ten of the last of them. -/
def decimal? (s : List Char) : Option (List Char × Int) :=
  let (whole, rest) := splitDigits s
  let (fraction, rest) := if startsWith '.' rest then splitDigits (rest.drop 1) else ([], rest)
  if whole.isEmpty && fraction.isEmpty then none
  else
    match exponent? rest with
    | some e => some (whole ++ fraction, e - fraction.length)
    | none => none

/-- The double nearest to a decimal.  Where the decimal has far too many or too few places for any
double, its exact value is not needed. -/
def nearest (digits : List Char) (exponent : Int) : Double :=
  let significant := digits.dropWhile (· = '0')
  let n := (readDigits 10 0 significant).getD 0
  let places := exponent + significant.length
  if n = 0 || places < -400 then .zero
  else if 400 < places then .infinity
  else if 0 ≤ exponent then .ofRatio (n * Nat.pow 10 exponent.toNat) 1
  else .ofRatio n (Nat.pow 10 (-exponent).toNat)

/-- The text of a positive finite double: all its digits, and at least one after the point. -/
def positional (x : Double) : String :=
  if x.isZero then "0.0"
  else
    let (c, k) := x.shortest
    let digits := toString c
    if 0 ≤ k then digits ++ String.ofList (List.replicate k.toNat '0') ++ ".0"
    else
      let places := (-k).toNat
      let padded := List.replicate (places + 1 - digits.length) '0' ++ digits.toList
      let whole := padded.length - places
      String.ofList (padded.take whole ++ '.' :: padded.drop whole)

/-- The text of the double that a text stands for; beyond the finite ones only special words
count. -/
def double? (s : List Char) : Option String :=
  let body := dropPlus s
  let plus := startsWith '+' s
  let word := String.ofList body
  -- a number has one sign at most
  if plus && startsSigned body then none
  else if word = ".inf" || word = ".Inf" || word = ".INF" then some "inf"
  else if !plus && (word = "-.inf" || word = "-.Inf" || word = "-.INF") then some "-inf"
  else if !plus && (word = ".nan" || word = ".NaN" || word = ".NAN") then some "NaN"
  else
    let minus := startsWith '-' body
    match decimal? (if minus then body.drop 1 else body) with
    | none => none
    | some (digits, exponent) =>
      let x := nearest digits exponent
      if x.isInfinite then none
      else some ((if minus then "-" else "") ++ positional x)

/-! ### Scalars -/

/-- What a plain scalar without a tag stands for. -/
def plainMeaning (text : String) : Meaning :=
  if text = "" || isNull text then .null
  else
    match truth? text, integer? text.toList with
    | some b, _ => .truth b
    | none, some n => n
    | none, none =>
      if hasNeedlessZero text.toList then .string text
      else
        match double? text.toList with
        | some x => .double x
        | none => .string text

/-- The kinds that a tag can ask for. -/
inductive TagKind where
  | truth
  | integer
  | double
  | null
  deriving DecidableEq, Repr

def TagKind.name : TagKind → String
  | truth => "a boolean"
  | integer => "an integer"
  | double => "a float"
  | null => "null"

/-- The tag that asks for a kind. -/
def TagKind.tag : TagKind → Bytes
  | truth => utf8 "tag:yaml.org,2002:bool"
  | integer => utf8 "tag:yaml.org,2002:int"
  | double => utf8 "tag:yaml.org,2002:float"
  | null => utf8 "tag:yaml.org,2002:null"

/-- The kind that a tag asks for. -/
def TagKind.ofTag? (tag : Bytes) : Option TagKind :=
  [truth, integer, double, null].find? fun k => k.tag = tag

/-- The meaning of a text as one of a kind. -/
def TagKind.meaning? (k : TagKind) (text : String) : Option Meaning :=
  match k with
  | truth => (truth? text).map .truth
  | integer => integer? text.toList
  | double => (double? text.toList).map .double
  | null => if isNull text then some .null else none

/-- **What a scalar stands for**; if its tag asks for a kind that it is none of, that kind. -/
def Scalar.meaning (s : Scalar) : Except TagKind Meaning :=
  match s.tag with
  | none => .ok (if s.style = .plain then plainMeaning s.text else .string s.text)
  | some tag =>
    match TagKind.ofTag? tag with
    | some k =>
      match k.meaning? s.text with
      | some m => .ok m
      | none => .error k
    | none =>
      .ok (if s.style = .plain && tag.head? = some 0x21 then plainMeaning s.text
        else .string s.text)

end Roster.Yaml
