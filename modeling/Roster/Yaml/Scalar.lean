/-
**Scalars.**

A scalar is a text together with the way it was written, and the tag that was put before it, if
there was one.  The way it was written matters: only plain scalars can stand for numbers, truth
values or nothing at all.

Main definitions:

* `Roster.Yaml.Scalar` — a text, a style and a tag;
* `Roster.Yaml.Gap` — what lies between two words of a scalar, and `Gap.text`, what it stands for:
  **one line break stands for a space, more of them for one less**.
-/

import Roster.Yaml.Cursor

set_option relaxedAutoImplicit false
set_option autoImplicit false

namespace Roster.Yaml

/-- How a scalar is written. -/
inductive ScalarStyle where
  | plain
  | single
  | double
  /-- As a block that keeps its line breaks. -/
  | literal
  /-- As a block that folds its lines. -/
  | folded
  deriving DecidableEq, Inhabited, Repr

structure Scalar where
  text : String
  style : ScalarStyle
  /-- Its tag, in full. -/
  tag : Option Bytes := none
  deriving DecidableEq, Inhabited, Repr

/-- A plain scalar without characters, which also stands for an omitted node. -/
def Scalar.isVoid (s : Scalar) : Bool := s.style = .plain && s.text = ""

/-! ### Gaps -/

/-- What lies between two words of a scalar. -/
inductive Gap where
  /-- Blanks only. -/
  | blanks (text : List Char)
  /-- Line breaks: the first one, and the others. -/
  | breaks (first more : List Char)
  deriving DecidableEq, Repr

namespace Gap

/-- No gap at all. -/
def empty : Gap := .blanks []

def isEmpty : Gap → Bool
  | .blanks [] => true
  | _ => false

def isBroken : Gap → Bool
  | .blanks _ => false
  | .breaks _ _ => true

/-- The gap with one more blank; blanks around line breaks are dropped. -/
def addBlank (c : Char) : Gap → Gap
  | .blanks text => .blanks (text ++ [c])
  | .breaks first more => .breaks first more

/-- The gap with one more line break; blanks before it are dropped. -/
def addBreak (text : List Char) : Gap → Gap
  | .blanks _ => .breaks text []
  | .breaks first more => .breaks first (more ++ text)

/-- What a gap stands for. -/
def text : Gap → List Char
  | .blanks text => text
  | .breaks ['\n'] [] => [' ']
  | .breaks ['\n'] more => more
  | .breaks first more => first ++ more

@[simp] theorem text_empty : empty.text = [] := rfl

@[simp] theorem text_addBreak_empty : (empty.addBreak ['\n']).text = [' '] := rfl

end Gap

end Roster.Yaml
