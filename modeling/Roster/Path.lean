/-
**Paths.**

A path is a text.  It names a file through its *parts*, the stretches between slashes; several
slashes in a row, slashes at the end, and single dots other than a leading one make no difference
to the file that is meant, and are dropped where a path is taken apart.  What is shown to a user is
always the text as it was given.

Main definitions:

* `Roster.Path` — a path;
* `Roster.Path.join` — a path below another one;
* `Roster.Path.parent?` — the path without its last part.
-/

import Roster.Text.Quoted

set_option relaxedAutoImplicit false
set_option autoImplicit false

namespace Roster

/-- A path. -/
structure Path where
  text : String
  deriving DecidableEq, Inhabited, Repr

namespace Path

/-- The path between quotes, as messages show it. -/
def quoted (p : Path) : String := Quoted.path p.text

/-- The path starts at the root. -/
def isAbsolute (p : Path) : Bool := p.text.toList.head? = some '/'

/-- A path below another one: the second path follows the first after a slash, unless it is
absolute and so stands for itself. -/
def join (p q : Path) : Path :=
  if q.isAbsolute then q
  else if p.text = "" || p.text.toList.getLast? = some '/' then ⟨p.text ++ q.text⟩
  else ⟨p.text ++ "/" ++ q.text⟩

theorem join_of_isAbsolute {p q : Path} (h : q.isAbsolute = true) : p.join q = q := by
  simp [join, h]

/-! ### Taking a path apart -/

/-- The stretches between the slashes of a text, empty ones included. -/
def stretches : List Char → List (List Char)
  | [] => [[]]
  | c :: rest =>
    if c = '/' then [] :: stretches rest
    else
      match stretches rest with
      | [] => [[c]]
      | s :: more => (c :: s) :: more

/-- The names that a path is walked along, from its start: the stretches that are not empty. -/
def names (p : Path) : List String :=
  ((stretches p.text.toList).filter fun s => !s.isEmpty).map String.ofList

/-- The text ends with a slash. -/
def endsWithSlash (p : Path) : Bool := p.text.toList.getLast? = some '/'

/-- The steps of a walk along the path: its names, and for a slash at its end an empty one, which
asks for a directory. -/
def steps (p : Path) : List String := if p.endsWithSlash then p.names ++ [""] else p.names

/-- The text has a zero byte in it. -/
def hasZero (p : Path) : Bool := p.text.toList.contains '\x00'

/-- A text, given backwards, without the slashes and the dots between slashes that it ends with.
A dot at the very start of a path is a part and stays. -/
def trimBack : List Char → List Char
  | '/' :: rest => trimBack rest
  | ['.'] => ['.']
  | '.' :: '/' :: rest => trimBack ('/' :: rest)
  | s => s

/-- A text, given backwards, without its last part. -/
def dropName (s : List Char) : List Char := s.dropWhile fun c => c ≠ '/'

/-- The path without its last part; a path without parts has none. -/
def parent? (p : Path) : Option Path :=
  match trimBack p.text.toList.reverse with
  | [] => none
  | s =>
    match dropName s with
    | [] => some ⟨""⟩
    | s =>
      match trimBack s with
      | [] => some ⟨"/"⟩
      | s => some ⟨String.ofList s.reverse⟩

/-- The path, its parent, the parent of that and so on, at most `k` of them; the empty path, which
stands for the working directory, is not among them. -/
def chain : Nat → Path → List Path
  | 0, _ => []
  | k + 1, p =>
    if p.text = "" then []
    else
      match p.parent? with
      | none => [p]
      | some q => p :: chain k q

/-- The path and all the paths above it. -/
def ancestors (p : Path) : List Path := chain p.text.length p

end Path

end Roster
