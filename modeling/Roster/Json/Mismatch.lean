/-
**Values of another type than the wanted one.**

A reader that wants an array, an object or a text and meets something else says what it has met.
Words, numbers and strings are read to the end first, and named with their value; arrays and
objects are named by their kind alone.

Main definitions:

* `Roster.Json.wrongType` — the fault of a value that is not of the wanted type.
-/

import Roster.Json.Printer
import Roster.Json.Reader
import Roster.Text.Quoted

set_option relaxedAutoImplicit false
set_option autoImplicit false

namespace Roster.Json

/-- What a number is called in a message. -/
def numberName : Number → String
  | .integer n => "integer `" ++ toString n ++ "`"
  | .double x => "floating point `" ++ ((text? (doubleText x)).getD "") ++ "`"

/-- The fault of a value that starts with `b` and is not of the wanted type.  The value is read
first unless it is an array or object, and a fault within it comes before that of its type. -/
def wrongType (wanted : String) (b : UInt8) (rest : Bytes) : Fault :=
  let word (w : Bytes) (found : String) : Fault :=
    match readWord w rest with
    | .error e => e
    | .ok rest => .before (.wrongType found wanted) rest
  let number (positive : Bool) (s : Bytes) : Fault :=
    match readNumber positive s with
    | .error e => e
    | .ok (n, rest) => .seen (.wrongType (numberName n) wanted) rest
  if b = 0x6e then word [0x75, 0x6c, 0x6c] "null"
  else if b = 0x74 then word [0x72, 0x75, 0x65] "boolean `true`"
  else if b = 0x66 then word [0x61, 0x6c, 0x73, 0x65] "boolean `false`"
  else if b = 0x2d then number false rest
  else if isDigit b then number true (b :: rest)
  else if b = 0x22 then
    match readString rest with
    | .error e => e
    | .ok (t, rest) => .before (.wrongType ("string " ++ Quoted.text t) wanted) rest
  else if b = 0x5b then .seen (.wrongType "sequence" wanted) (b :: rest)
  else if b = 0x7b then .seen (.wrongType "map" wanted) (b :: rest)
  else .onto .expectedValue (b :: rest)

end Roster.Json
