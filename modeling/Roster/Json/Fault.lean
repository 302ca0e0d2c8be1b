/-
**What is wrong with a JSON text, and where.**

A reader that gives up says why, and how much of its input it had not yet consumed.  The place it
reports is a line and a column, both counted in bytes; it is found from the number of bytes that
lie before it.  Whether the byte that the reader was looking at counts as well depends on the kind
of fault, and, for faults found after the fact, on whether the input arrives as a stream (the byte
has been taken from it) or stands in memory (it has only been seen).

Main definitions:

* `Roster.Json.Cause`, with its wording `Cause.message`;
* `Roster.Json.Fault` — a cause and a place in the unread input;
* `Roster.Json.Position` — lines and columns;
* `Roster.Json.Fault.message` — the whole text of a fault.
-/

import Roster.Bytes

set_option relaxedAutoImplicit false
set_option autoImplicit false

namespace Roster.Json

/-! ### Causes -/

/-- Why a JSON text was not accepted. -/
inductive Cause where
  | endInValue
  | endInString
  | endInList
  | endInObject
  | expectedColon
  | expectedListEnd
  | expectedObjectEnd
  /-- A word other than `null`, `true` and `false`. -/
  | expectedWord
  | expectedValue
  | invalidEscape
  | invalidNumber
  /-- A number beyond the doubles. -/
  | numberOutOfRange
  /-- A string that is not UTF-8. -/
  | invalidCodePoint
  | controlCharacter
  | keyNotString
  | loneSurrogate
  /-- The first half of a surrogate pair without a second escape. -/
  | endOfEscape
  | trailingComma
  | trailingCharacters
  | tooDeep
  /-- A value of another type than the wanted one. -/
  | wrongType (found wanted : String)
  /-- An array of another length than the wanted one. -/
  | wrongLength (found : Nat) (wanted : String)
  | duplicateField (key : String)
  | missingField (key : String)
  deriving DecidableEq, Inhabited, Repr

def Cause.message : Cause → String
  | endInValue => "EOF while parsing a value"
  | endInString => "EOF while parsing a string"
  | endInList => "EOF while parsing a list"
  | endInObject => "EOF while parsing an object"
  | expectedColon => "expected `:`"
  | expectedListEnd => "expected `,` or `]`"
  | expectedObjectEnd => "expected `,` or `\x7d`"
  | expectedWord => "expected ident"
  | expectedValue => "expected value"
  | invalidEscape => "invalid escape"
  | invalidNumber => "invalid number"
  | numberOutOfRange => "number out of range"
  | invalidCodePoint => "invalid unicode code point"
  | controlCharacter => "control character (\\u0000-\\u001F) found while parsing a string"
  | keyNotString => "key must be a string"
  | loneSurrogate => "lone leading surrogate in hex escape"
  | endOfEscape => "unexpected end of hex escape"
  | trailingComma => "trailing comma"
  | trailingCharacters => "trailing characters"
  | tooDeep => "recursion limit exceeded"
  | wrongType found wanted => "invalid type: " ++ found ++ ", expected " ++ wanted
  | wrongLength found wanted => "invalid length " ++ toString found ++ ", expected " ++ wanted
  | duplicateField key => "duplicate field `" ++ key ++ "`"
  | missingField key => "missing field `" ++ key ++ "`"

/-! ### Places -/

/-- How a fault relates to the first unread byte. -/
inductive Sight where
  /-- The fault lies before the byte. -/
  | before
  /-- The fault is the byte. -/
  | onto
  /-- The fault was found before the byte, which has been looked at since. -/
  | seen
  deriving DecidableEq, Inhabited, Repr

/-- A fault: its cause, the number of bytes not yet read, and how it relates to the first of
them. -/
structure Fault where
  cause : Cause
  /-- The number of bytes not yet read. -/
  unread : Nat
  /-- How the fault relates to the first unread byte. -/
  sight : Sight
  deriving DecidableEq, Inhabited, Repr

/-- A fault before the rest of the input. -/
def Fault.before (c : Cause) (rest : Bytes) : Fault := ⟨c, rest.length, .before⟩

/-- A fault at the first byte of the rest of the input. -/
def Fault.onto (c : Cause) (rest : Bytes) : Fault := ⟨c, rest.length, .onto⟩

/-- A fault found after the first byte of the rest of the input was looked at. -/
def Fault.seen (c : Cause) (rest : Bytes) : Fault := ⟨c, rest.length, .seen⟩

/-- How an input is read. -/
inductive Source where
  /-- Byte by byte: a byte that has been looked at has been taken. -/
  | stream
  /-- As a whole, in memory. -/
  | memory
  deriving DecidableEq, Inhabited, Repr

/-- A line and a column, both in bytes. -/
structure Position where
  /-- The line, from one. -/
  line : Nat
  /-- The bytes on the line. -/
  column : Nat
  deriving DecidableEq, Inhabited, Repr

/-- The position after some bytes that start at a position. -/
def Position.advance : Position → Bytes → Position
  | p, [] => p
  | p, b :: rest =>
    if b = 0x0a then advance ⟨p.line + 1, 0⟩ rest else advance ⟨p.line, p.column + 1⟩ rest

def Position.text (p : Position) : String :=
  "line " ++ toString p.line ++ " column " ++ toString p.column

/-- The number of bytes before a fault. -/
def Fault.offset (e : Fault) (source : Source) (content : Bytes) : Nat :=
  let seen := match e.sight, source with
    | .onto, _ => 1
    | .seen, .stream => 1
    | _, _ => 0
  min content.length (content.length - e.unread + seen)

/-- The position of a fault in a content. -/
def Fault.position (e : Fault) (source : Source) (content : Bytes) : Position :=
  Position.advance ⟨1, 0⟩ (content.take (e.offset source content))

/-- The whole text of a fault. -/
def Fault.message (e : Fault) (source : Source) (content : Bytes) : String :=
  e.cause.message ++ " at " ++ (e.position source content).text

end Roster.Json
