/-
**Why a text is not the document that is wanted.**

A text may be malformed; it may hold no document, or more than one; or its document may be well
formed and not what was asked for.  In the last case the error says what the issue is and where in
the document it arose, both as a trail of keys and positions from the root and as a place in the
text.  The innermost node that is not what it should be gives the place.

Main definitions:

* `Roster.Yaml.Trail` — the way from the root of a document to a node;
* `Roster.Yaml.Issue` — what is not as it should be;
* `Roster.Yaml.Error`, with its wording `Error.message`.
-/

import Roster.Yaml.Fault
import Roster.Yaml.Resolve

set_option relaxedAutoImplicit false
set_option autoImplicit false

namespace Roster.Yaml

/-- The way from the root of a document to a node. -/
inductive Trail where
  | root
  | key (parent : Trail) (key : String)
  /-- The value of a key that is no scalar. -/
  | unknown (parent : Trail)
  | item (parent : Trail) (index : Nat)
  deriving DecidableEq, Inhabited, Repr

namespace Trail

/-- The text of a trail; the root is empty. -/
def text : Trail → String
  | root => ""
  | key root k => k
  | key parent k => parent.text ++ "." ++ k
  | unknown root => "?"
  | unknown parent => parent.text ++ ".?"
  | item parent i => parent.text ++ "[" ++ toString i ++ "]"

/-- The trail before a message. -/
def intro (t : Trail) : String := if t = root then "" else t.text ++ ": "

end Trail

/-- What is not as it should be. -/
inductive Issue where
  /-- A node stands for something else than is wanted. -/
  | wrongType (found : Meaning) (wanted : String)
  /-- A text is none of the kind that its tag asks for. -/
  | wrongValue (text : String) (wanted : TagKind)
  | missing (key : String)
  | duplicate (key : String)
  deriving DecidableEq, Inhabited, Repr

def Issue.message : Issue → String
  | wrongType found wanted => "invalid type: " ++ found.name ++ ", expected " ++ wanted
  | wrongValue text wanted =>
    "invalid value: string " ++ Quoted.text text ++ ", expected " ++ wanted.name
  | missing key => "missing field `" ++ key ++ "`"
  | duplicate key => "duplicate field `" ++ key ++ "`"

/-- Why a text is not the document that is wanted. -/
inductive Error where
  | fault (f : Fault)
  | unknownAnchor (m : Mark)
  /-- It ends where a value is needed. -/
  | ended
  /-- Its aliases had to be followed too often. -/
  | manyAliases
  | manyDocuments
  /-- Its document is not what is wanted; the place is known once the node has been left. -/
  | issue (i : Issue) (place : Option (Mark × Trail))
  deriving DecidableEq, Inhabited, Repr

namespace Error

/-- The error with a place, unless it has one already. -/
def placed (m : Mark) (t : Trail) : Error → Error
  | issue i none => issue i (some (m, t))
  | e => e

def message : Error → String
  | fault f => f.message
  | unknownAnchor m => "unknown anchor" ++ m.suffix
  | ended => "EOF while parsing a value"
  | manyAliases => "repetition limit exceeded"
  | manyDocuments =>
    "deserializing from YAML containing more than one document is not supported"
  | issue i none => i.message
  | issue i (some (m, t)) => t.intro ++ i.message ++ m.suffix

@[simp] theorem placed_placed (m m' : Mark) (t t' : Trail) (e : Error) :
    (e.placed m t).placed m' t' = e.placed m t := by
  cases e with
  | issue i place => cases place <;> rfl
  | _ => rfl

end Error

end Roster.Yaml
