/-
**What is wrong with a YAML text, and where.**

A fault names a problem and the place where it showed, and often also what was being read and where
that began.  Places are shown as lines and columns, both counted from one; the very start of a text
is not shown at all.

Main definitions:

* `Roster.Yaml.Mark` — a place in a text;
* `Roster.Yaml.Problem`, `Roster.Yaml.Context` — what is wrong, and what was being read;
* `Roster.Yaml.Fault`, with its wording `Fault.message`.
-/

import Roster.Bytes

set_option relaxedAutoImplicit false
set_option autoImplicit false

namespace Roster.Yaml

/-! ### Marks -/

/-- A place in a text; everything is counted from zero. -/
structure Mark where
  /-- The number of bytes before it. -/
  index : Nat := 0
  /-- The number of lines before it. -/
  line : Nat := 0
  /-- The number of characters before it on its line. -/
  column : Nat := 0
  deriving DecidableEq, Inhabited, Repr

namespace Mark

/-- The place some characters further on the same line, each of them a single byte. -/
def advance (m : Mark) (k : Nat) : Mark :=
  { m with index := m.index + k, column := m.column + k }

/-- The place after a character that does not end the line. -/
def next (m : Mark) (c : Char) : Mark :=
  { m with index := m.index + c.utf8Size, column := m.column + 1 }

/-- The place after some characters, none of which ends the line. -/
def past (m : Mark) (cs : List Char) : Mark := cs.foldl next m

/-- The start of the next line, after a line break of so many bytes. -/
def breakLine (m : Mark) (width : Nat) : Mark :=
  { index := m.index + width, line := m.line + 1, column := 0 }

/-- The place is the start of the text, as far as lines and columns tell. -/
def isStart (m : Mark) : Bool := m.line = 0 && m.column = 0

/-- The place after a message: its line and column, and nothing for the start of the text. -/
def suffix (m : Mark) : String :=
  if m.isStart then ""
  else " at line " ++ toString (m.line + 1) ++ " column " ++ toString (m.column + 1)

@[simp] theorem past_nil (m : Mark) : m.past [] = m := rfl

@[simp] theorem past_append (m : Mark) (cs ds : List Char) :
    m.past (cs ++ ds) = (m.past cs).past ds := by
  simp [past]

end Mark

/-! ### Problems -/

/-- What is wrong. -/
inductive Problem where
  /-- A dash where no entry of a sequence can stand. -/
  | misplacedEntry
  /-- A question mark where no key can stand. -/
  | misplacedKey
  /-- A colon where no value can stand. -/
  | misplacedValue
  | missingColon
  /-- A character that starts nothing. -/
  | strayCharacter
  | unclosedQuote
  /-- A document ends within quotes. -/
  | markerInQuotes
  | unknownEscape
  | missingHexDigit
  /-- An escape that stands for no character. -/
  | invalidCodePoint
  /-- A colon before a bracket or comma. -/
  | colonBeforeBracket
  /-- A tab that stands for indentation in a plain scalar. -/
  | tabAsIndentation
  | zeroIndentation
  /-- Something else than a comment at the end of a line. -/
  | missingLineEnd
  /-- A tab in the indentation of a block scalar. -/
  | tabInIndentation
  | missingAnchorName
  | missingDirectiveName
  | malformedDirectiveName
  | unknownDirective
  | missingVersionDot
  /-- A version number of more than nine digits. -/
  | longVersion
  | missingVersionNumber
  /-- A handle that no blank follows. -/
  | missingBlank
  /-- A tag that neither a blank nor the end of the line follows. -/
  | missingBlankOrLineEnd
  | missingTagEnd
  | missingTagMark
  | missingTagCharacters
  | missingOctet
  /-- An octet that starts no character. -/
  | invalidFirstOctet
  /-- An octet that continues no character. -/
  | invalidLaterOctet
  | missingDocumentStart
  | missingNode
  | missingEntry
  | missingKey
  | missingComma
  | missingCommaInBraces
  | undefinedHandle
  | repeatedVersion
  /-- A version other than 1.1 and 1.2. -/
  | unsupportedVersion
  | repeatedHandle
  deriving DecidableEq, Inhabited, Repr

def Problem.message : Problem → String
  | misplacedEntry => "block sequence entries are not allowed in this context"
  | misplacedKey => "mapping keys are not allowed in this context"
  | misplacedValue => "mapping values are not allowed in this context"
  | missingColon => "could not find expected ':'"
  | strayCharacter => "found character that cannot start any token"
  | unclosedQuote => "found unexpected end of stream"
  | markerInQuotes => "found unexpected document indicator"
  | unknownEscape => "found unknown escape character"
  | missingHexDigit => "did not find expected hexadecimal number"
  | invalidCodePoint => "found invalid Unicode character escape code"
  | colonBeforeBracket => "found unexpected ':'"
  | tabAsIndentation => "found a tab character that violates indentation"
  | zeroIndentation => "found an indentation indicator equal to 0"
  | missingLineEnd => "did not find expected comment or line break"
  | tabInIndentation => "found a tab character where an indentation space is expected"
  | missingAnchorName => "did not find expected alphabetic or numeric character"
  | missingDirectiveName => "could not find expected directive name"
  | malformedDirectiveName => "found unexpected non-alphabetical character"
  | unknownDirective => "found unknown directive name"
  | missingVersionDot => "did not find expected digit or '.' character"
  | longVersion => "found extremely long version number"
  | missingVersionNumber => "did not find expected version number"
  | missingBlank => "did not find expected whitespace"
  | missingBlankOrLineEnd => "did not find expected whitespace or line break"
  | missingTagEnd => "did not find the expected '>'"
  | missingTagMark => "did not find expected '!'"
  | missingTagCharacters => "did not find expected tag URI"
  | missingOctet => "did not find URI escaped octet"
  | invalidFirstOctet => "found an incorrect leading UTF-8 octet"
  | invalidLaterOctet => "found an incorrect trailing UTF-8 octet"
  | missingDocumentStart => "did not find expected <document start>"
  | missingNode => "did not find expected node content"
  | missingEntry => "did not find expected '-' indicator"
  | missingKey => "did not find expected key"
  | missingComma => "did not find expected ',' or ']'"
  | missingCommaInBraces => "did not find expected ',' or '\x7d'"
  | undefinedHandle => "found undefined tag handle"
  | repeatedVersion => "found duplicate %YAML directive"
  | unsupportedVersion => "found incompatible YAML document"
  | repeatedHandle => "found duplicate %TAG directive"

/-! ### Contexts -/

/-- What was being read. -/
inductive Context where
  /-- A key on one line. -/
  | key
  | token
  | quoted
  | escape
  | plain
  | block
  | anchor
  | aliasNode
  | directive
  | versionDirective
  | tagDirective
  /-- The start of a handle in a tag directive. -/
  | handleStart
  /-- The end of a handle in a tag directive. -/
  | handleEnd
  /-- The characters of a tag in a tag directive. -/
  | directiveCharacters
  | tag
  | tagCharacters
  | node
  /-- A node outside of brackets. -/
  | blockNode
  /-- A node within brackets. -/
  | flowNode
  | blockSequence
  | blockMapping
  | flowSequence
  | flowMapping
  deriving DecidableEq, Inhabited, Repr

def Context.message : Context → String
  | key => "while scanning a simple key"
  | token => "while scanning for the next token"
  | quoted => "while scanning a quoted scalar"
  | escape => "while parsing a quoted scalar"
  | plain => "while scanning a plain scalar"
  | block => "while scanning a block scalar"
  | anchor => "while scanning an anchor"
  | aliasNode => "while scanning an alias"
  | directive => "while scanning a directive"
  | versionDirective => "while scanning a %YAML directive"
  | tagDirective => "while scanning a %TAG directive"
  | handleStart => "while scanning a tag directive"
  | handleEnd => "while parsing a tag directive"
  | directiveCharacters => "while parsing a %TAG directive"
  | tag => "while scanning a tag"
  | tagCharacters => "while parsing a tag"
  | node => "while parsing a node"
  | blockNode => "while parsing a block node"
  | flowNode => "while parsing a flow node"
  | blockSequence => "while parsing a block collection"
  | blockMapping => "while parsing a block mapping"
  | flowSequence => "while parsing a flow sequence"
  | flowMapping => "while parsing a flow mapping"

/-! ### Faults -/

/-- What is wrong, where it showed, and what was being read. -/
inductive Fault where
  /-- The text has a character that no text may have, after so many bytes. -/
  | control (offset : Nat)
  | malformed (problem : Problem) (mark : Mark) (context : Option (Context × Mark))
  deriving DecidableEq, Inhabited, Repr

namespace Fault

/-- A problem that showed while something was being read that began at a mark. -/
def during (context : Context) (start : Mark) (problem : Problem) (mark : Mark) : Fault :=
  malformed problem mark (some (context, start))

/-- A problem that needs no context. -/
def plainly (problem : Problem) (mark : Mark) : Fault := malformed problem mark none

def contextText (mark : Mark) : Option (Context × Mark) → String
  | none => ""
  | some (context, start) =>
    ", " ++ context.message
      -- the place of the context is left out where it is that of the problem
      ++ (if start.line = mark.line && start.column = mark.column then "" else start.suffix)

def message : Fault → String
  | control offset =>
    "control characters are not allowed"
      ++ (if offset = 0 then "" else " at position " ++ toString offset)
  | malformed problem mark context =>
    problem.message ++ mark.suffix ++ contextText mark context

end Fault

end Roster.Yaml
