/-
**Tokens.**

A text is first cut into tokens.  Most of them are seen in the text; those that open and close
blocks come from its indentation.  Whether a scalar is a key is only known when its colon is met, so
a token waits while it may still become a key, and the tokens for the key and its mapping are then
put before it.  A key has to be met on its own line and within 1024 bytes.

Some control characters may not stand in a text at all.  One that lies far ahead goes unnoticed
until the tokens come close to it, so that a fault before it is found first.

Main definitions:

* `Roster.Yaml.Token` — a token and its place;
* `Roster.Yaml.Lexer` — the unread text, the waiting tokens, the open blocks and the candidates for
  keys;
* `Roster.Yaml.Lexer.fetch` — reads the next token;
* `Roster.Yaml.Tokens`, `Roster.Yaml.tokens` — **the tokens of a text**, up to its first fault.
-/

import Roster.Yaml.Scalar.Block
import Roster.Yaml.Scalar.Plain
import Roster.Yaml.Scalar.QuotedScalar
import Roster.Yaml.Tag

set_option relaxedAutoImplicit false
set_option autoImplicit false

namespace Roster.Yaml

/-! ### Tokens -/

inductive Token.Kind where
  | streamEnd
  | directive (d : Directive)
  | documentStart
  | documentEnd
  /-- The start of a sequence by indentation. -/
  | blockSequenceStart
  /-- The start of a mapping by indentation. -/
  | blockMappingStart
  /-- The end of a sequence or mapping by indentation. -/
  | blockEnd
  | flowSequenceStart
  | flowSequenceEnd
  | flowMappingStart
  | flowMappingEnd
  /-- A dash before an entry. -/
  | blockEntry
  | flowEntry
  | key
  | value
  | aliasNode (name : String)
  | anchor (name : String)
  | tag (tag : Tag)
  | scalar (text : String) (style : ScalarStyle)
  deriving DecidableEq, Repr

structure Token where
  kind : Token.Kind
  /-- Where it begins. -/
  mark : Mark
  deriving DecidableEq, Repr

/-! ### The state between two tokens -/

/-- A token that may still become a key. -/
structure Candidate where
  /-- It cannot be anything else. -/
  required : Bool
  /-- How many tokens come before it. -/
  number : Nat
  /-- How many brackets are open around it. -/
  depth : Nat
  mark : Mark
  deriving DecidableEq, Inhabited, Repr

/-- How many bytes a key may be away from its colon. -/
def maxKeyLength : Nat := 1024

/-- The candidate can no longer become a key. -/
def Candidate.isStale (c : Candidate) (m : Mark) : Bool :=
  c.mark.line < m.line || c.mark.index + maxKeyLength < m.index

/-- The fault of a token that had to become a key and did not. -/
def Candidate.fault (c : Candidate) (m : Mark) : Fault := .during .key c.mark .missingColon m

/-- A character that may not stand in a text.  A text is looked at portion by portion, so it is met
as soon as the first character of its portion is needed. -/
structure Obstacle where
  /-- How many bytes lie before its portion. -/
  portion : Nat
  /-- How many bytes lie before it. -/
  offset : Nat
  deriving DecidableEq, Inhabited, Repr

/-- The most bytes of a portion, which holds whole characters only. -/
def portionSize : Nat := 16384

/-- The first character that may not stand in a text.  Before the text lie `offset` bytes, and
`portion` of them before the current portion. -/
def Obstacle.find? (portion offset : Nat) : List Char → Option Obstacle
  | [] => none
  | c :: rest =>
    let after := offset + c.utf8Size
    let portion := if portion + portionSize < after then offset else portion
    if isPrintable c then find? portion after rest else some { portion, offset }

/-- What is known between two tokens. -/
structure Lexer where
  cursor : Cursor
  waiting : List Token := []
  delivered : Nat := 0
  /-- The columns of the open blocks, the innermost first. -/
  blocks : List Nat := []
  /-- A key may begin here. -/
  keyAllowed : Bool := true
  /-- How many brackets are open. -/
  depth : Nat := 0
  /-- The candidates, the innermost first; each depth has one at most. -/
  candidates : List Candidate := []
  /-- The first character that may not stand in the text, if there is one. -/
  obstacle : Option Obstacle := none

namespace Lexer

/-- The place of the unread text. -/
def mark (l : Lexer) : Mark := l.cursor.mark

/-- The unread text is within brackets. -/
def inFlow (l : Lexer) : Bool := l.depth ≠ 0

/-- The column of the innermost block. -/
def indent? (l : Lexer) : Option Nat := l.blocks.head?

/-- How far a line has to be indented to continue the innermost block. -/
def deeper (l : Lexer) : Nat :=
  match l.indent? with
  | some i => i + 1
  | none => 0

/-- The lexer with one more token waiting. -/
def push (l : Lexer) (kind : Token.Kind) (mark : Mark) : Lexer :=
  { l with waiting := l.waiting ++ [⟨kind, mark⟩] }

/-- The lexer with a token before the one of a number. -/
def pushAt (l : Lexer) (number : Nat) (kind : Token.Kind) (mark : Mark) : Lexer :=
  let k := number - l.delivered
  { l with waiting := l.waiting.take k ++ ⟨kind, mark⟩ :: l.waiting.drop k }

/-- The number of the next token. -/
def nextNumber (l : Lexer) : Nat := l.delivered + l.waiting.length

/-! ### Blocks -/

/-- The block of a column is opened, unless it is open or there are brackets around it.  Its token
comes before the one of a number. -/
def openBlock (l : Lexer) (kind : Token.Kind) (number : Nat) (m : Mark) : Lexer :=
  if !l.inFlow && l.deeper ≤ m.column then
    { l.pushAt number kind m with blocks := m.column :: l.blocks }
  else l

/-- The blocks that are deeper than a column, of those given. -/
def closing (column : Option Nat) (blocks : List Nat) : List Nat :=
  blocks.takeWhile fun b =>
    match column with
    | some c => c < b
    | none => true

/-- The blocks that are deeper than a column are closed; without a column, all of them. -/
def closeBlocks (l : Lexer) (column : Option Nat) : Lexer :=
  if l.inFlow then l
  else
    let closed := closing column l.blocks
    { l with
      waiting := l.waiting ++ closed.map fun _ => ⟨.blockEnd, l.mark⟩
      blocks := l.blocks.drop closed.length }

/-! ### Candidates -/

/-- The candidate within the innermost brackets. -/
def candidate? (l : Lexer) : Option Candidate :=
  l.candidates.head?.filter fun c => c.depth = l.depth

/-- Drops the candidates that can no longer become keys. -/
def dropStale (l : Lexer) : Except Fault Lexer :=
  match l.candidates.find? fun c => c.required && c.isStale l.mark with
  | some c => .error (c.fault l.mark)
  | none => .ok { l with candidates := l.candidates.filter fun c => !c.isStale l.mark }

/-- Drops the candidate within the innermost brackets. -/
def dropCandidate (l : Lexer) : Except Fault Lexer :=
  match l.candidate? with
  | none => .ok l
  | some c =>
    if c.required then .error (c.fault l.mark)
    else .ok { l with candidates := l.candidates.drop 1 }

/-- The next token becomes a candidate, if a key may begin here. -/
def saveCandidate (l : Lexer) : Except Fault Lexer :=
  if l.keyAllowed then do
    -- in the column of the innermost block there is nothing but its keys
    let required := !l.inFlow && l.indent? = some l.mark.column
    let l ← l.dropCandidate
    let c : Candidate := { required, number := l.nextNumber, depth := l.depth, mark := l.mark }
    .ok { l with candidates := c :: l.candidates }
  else .ok l

/-- The first waiting token may still become a key. -/
def isBlocked (l : Lexer) : Bool := l.candidates.any fun c => c.number = l.delivered

/-! ### Obstacles -/

/-- The fault of a text whose first `reach` bytes have been looked at, if they meet the obstacle. -/
def met (l : Lexer) (reach : Nat) : Option Fault :=
  match l.obstacle with
  | some o => if o.portion < reach then some (.control o.offset) else none
  | none => none

/-- Looks at so many characters of the unread text. -/
def look (l : Lexer) (width : Nat) : Except Fault Lexer :=
  match l.met (l.mark.past (l.cursor.rest.take width)).index with
  | some e => .error e
  | none => .ok l

/-- The first fault where one shows: the character at its place has been looked at before. -/
def firstFault (l : Lexer) (e : Fault) : Fault :=
  match e with
  | .malformed _ mark _ => (l.met (mark.index + 1)).getD e
  | .control _ => e

/-! ### Reading the next token -/

/-- The cursor at the next token, after blanks, comments and line breaks, and after the byte-order
marks that lines start with; a line break outside of brackets allows a key. -/
def toNext (flow allowed comment : Bool) (m : Mark) : List Char → Cursor × Bool
  | [] => (⟨[], m⟩, allowed)
  | '\r' :: '\n' :: rest => toNext flow (allowed || !flow) false (m.breakLine 2) rest
  | c :: rest =>
    if isBreak c then toNext flow (allowed || !flow) false (m.breakLine c.utf8Size) rest
    -- a tab does not count as a blank where it could be meant as indentation
    else if comment || c = ' ' || (c = '\t' && (flow || !allowed))
        || (c = '\ufeff' && m.column = 0) then
      toNext flow allowed comment (m.next c) rest
    else if c = '#' then toNext flow allowed true (m.next c) rest
    else (⟨c :: rest, m⟩, allowed)

/-- Goes on to the next token. -/
def skipToNext (l : Lexer) : Lexer :=
  let (cursor, keyAllowed) := toNext l.inFlow l.keyAllowed false l.mark l.cursor.rest
  { l with cursor, keyAllowed }

/-- Takes a token of so many characters. -/
def takeToken (l : Lexer) (kind : Token.Kind) (width : Nat) : Lexer :=
  { l.push kind l.mark with cursor := l.cursor.skip width }

/-- The end of the text: all blocks are closed, on a line of their own. -/
def fetchEnd (l : Lexer) : Except Fault Lexer := do
  let m := l.mark
  let m := if m.column = 0 then m else m.breakLine 0
  let l := { l with cursor := ⟨l.cursor.rest, m⟩ }.closeBlocks none
  let l ← l.dropCandidate
  .ok ({ l with keyAllowed := false }.push .streamEnd m)

def fetchDirective (l : Lexer) : Except Fault Lexer := do
  let l ← (l.closeBlocks none).dropCandidate
  let (d, cursor) ← readDirective l.cursor
  .ok { l.push (.directive d) l.mark with cursor, keyAllowed := false }

/-- A marker that begins or ends a document. -/
def fetchMarker (l : Lexer) (kind : Token.Kind) : Except Fault Lexer := do
  let l ← (l.closeBlocks none).dropCandidate
  .ok ({ l with keyAllowed := false }.takeToken kind 3)

/-- An opening bracket, which may begin a key. -/
def fetchOpening (l : Lexer) (kind : Token.Kind) : Except Fault Lexer := do
  let l ← l.saveCandidate
  .ok ({ l with depth := l.depth + 1, keyAllowed := true }.takeToken kind 1)

def fetchClosing (l : Lexer) (kind : Token.Kind) : Except Fault Lexer := do
  let l ← l.dropCandidate
  .ok ({ l with depth := l.depth - 1, keyAllowed := false }.takeToken kind 1)

def fetchComma (l : Lexer) : Except Fault Lexer := do
  let l ← l.dropCandidate
  .ok ({ l with keyAllowed := true }.takeToken .flowEntry 1)

/-- Opens a block at the current place for an indicator that stands outside of brackets only where
a key may begin. -/
def openHere (l : Lexer) (kind : Token.Kind) (problem : Problem) : Except Fault Lexer :=
  if l.inFlow then .ok l
  else if l.keyAllowed then .ok (l.openBlock kind l.nextNumber l.mark)
  else .error (.plainly problem l.mark)

/-- A dash before an entry. -/
def fetchEntry (l : Lexer) : Except Fault Lexer := do
  let l ← l.openHere .blockSequenceStart .misplacedEntry
  let l ← l.dropCandidate
  .ok ({ l with keyAllowed := true }.takeToken .blockEntry 1)

/-- A question mark before a key. -/
def fetchKey (l : Lexer) : Except Fault Lexer := do
  let l ← l.openHere .blockMappingStart .misplacedKey
  let l ← l.dropCandidate
  .ok ({ l with keyAllowed := !l.inFlow }.takeToken .key 1)

/-- A colon before a value: the candidate, if there is one, has become a key. -/
def fetchValue (l : Lexer) : Except Fault Lexer :=
  match l.candidate? with
  | some c =>
    let l := (l.pushAt c.number .key c.mark).openBlock .blockMappingStart c.number c.mark
    .ok ({ l with candidates := l.candidates.drop 1, keyAllowed := false }.takeToken .value 1)
  | none => do
    let l ← l.openHere .blockMappingStart .misplacedValue
    .ok ({ l with keyAllowed := !l.inFlow }.takeToken .value 1)

/-- An anchor or an alias. -/
def fetchAnchor (l : Lexer) (context : Context) (kind : String → Token.Kind) :
    Except Fault Lexer := do
  let l ← l.saveCandidate
  let (name, cursor) ← readAnchor context l.cursor
  .ok { l.push (kind name) l.mark with cursor, keyAllowed := false }

def fetchTag (l : Lexer) : Except Fault Lexer := do
  let l ← l.saveCandidate
  let (tag, cursor) ← readTag l.inFlow l.cursor
  .ok { l.push (.tag tag) l.mark with cursor, keyAllowed := false }

/-- A block scalar, which is never a key. -/
def fetchBlock (l : Lexer) (style : ScalarStyle) : Except Fault Lexer := do
  let l ← l.dropCandidate
  let (text, cursor) ← Block.read (style = .folded) l.indent? l.cursor
  .ok { l.push (.scalar text style) l.mark with cursor, keyAllowed := true }

def fetchQuoted (l : Lexer) (style : ScalarStyle) : Except Fault Lexer := do
  let l ← l.saveCandidate
  let (text, cursor) ← QuotedScalar.read (style = .single) l.cursor
  .ok { l.push (.scalar text style) l.mark with cursor, keyAllowed := false }

/-- A plain scalar; a line break after it allows a key. -/
def fetchPlain (l : Lexer) : Except Fault Lexer := do
  let l ← l.saveCandidate
  let r ← Plain.read l.inFlow l.deeper l.cursor
  .ok { l.push (.scalar r.text .plain) l.mark with cursor := r.after, keyAllowed := r.broken }

/-- A character that starts no plain scalar. -/
def isIndicator (c : Char) : Bool := "-?:,[]\x7b\x7d#&*!|>\x27\x22%@\x60".toList.contains c

/-- The text starts a plain scalar. -/
def startsPlain (flow : Bool) : List Char → Bool
  | [] => false
  | c :: rest =>
    !(isGap c || isIndicator c) || (c = '-' && !(rest.head?.any isBlank))
      || (!flow && (c = '?' || c = ':') && !endsOr isGap rest)

/-- Reads the token that begins at the current place. -/
def fetchHere (l : Lexer) : Except Fault Lexer :=
  let s := l.cursor.rest
  -- within brackets an indicator needs no blank after it
  let atGap := l.inFlow || endsOr isGap (s.drop 1)
  match s with
  | [] => l.fetchEnd
  | c :: rest =>
    if l.mark.column = 0 && c = '%' then l.fetchDirective
    else if l.mark.column = 0 && startsWithMarker '-' s then l.fetchMarker .documentStart
    else if l.mark.column = 0 && startsWithMarker '.' s then l.fetchMarker .documentEnd
    else if c = '[' then l.fetchOpening .flowSequenceStart
    else if c = '\x7b' then l.fetchOpening .flowMappingStart
    else if c = ']' then l.fetchClosing .flowSequenceEnd
    else if c = '\x7d' then l.fetchClosing .flowMappingEnd
    else if c = ',' then l.fetchComma
    else if c = '-' && endsOr isGap rest then l.fetchEntry
    else if c = '?' && atGap then l.fetchKey
    else if c = ':' && atGap then l.fetchValue
    else if c = '*' then l.fetchAnchor .aliasNode .aliasNode
    else if c = '&' then l.fetchAnchor .anchor .anchor
    else if c = '!' then l.fetchTag
    else if c = '|' && !l.inFlow then l.fetchBlock .literal
    else if c = '>' && !l.inFlow then l.fetchBlock .folded
    else if c = '\x27' then l.fetchQuoted .single
    else if c = '\x22' then l.fetchQuoted .double
    else if startsPlain l.inFlow s then l.fetchPlain
    else .error (.during .token l.mark .strayCharacter l.mark)

/-- How many characters are looked at before a token is read. -/
def tokenSight : Nat := 4

/-- Reads the next token: the candidates and blocks that end before it are closed first. -/
def fetch (l : Lexer) : Except Fault Lexer := do
  let l ← l.skipToNext.look 1
  let l ← l.dropStale
  let l ← (l.closeBlocks (some l.mark.column)).look tokenSight
  match l.fetchHere with
  | .ok l => l.look 1
  | .error e => .error (l.firstFault e)

end Lexer

/-! ### All tokens -/

/-- The tokens of a text up to its first fault, if it has one. -/
structure Tokens where
  items : List Token
  /-- The fault after them. -/
  fault : Option Fault := none

/-- Delivers the waiting tokens and reads on; every step reads or delivers one. -/
def Lexer.run : Nat → Lexer → Tokens
  | 0, _ => { items := [] }
  | steps + 1, l =>
    match l.waiting with
    | [] =>
      match l.fetch with
      | .error e => { items := [], fault := some e }
      | .ok l => run steps l
    | t :: rest =>
      match l.dropStale with
      | .error e => { items := [], fault := some e }
      | .ok l =>
        -- the tokens of a key may still have to come before this one
        if l.isBlocked then
          match l.fetch with
          | .error e => { items := [], fault := some e }
          | .ok l => run steps l
        else if t.kind = .streamEnd then { items := [t] }
        else
          let more := run steps { l with waiting := rest, delivered := l.delivered + 1 }
          { more with items := t :: more.items }

/-- **The tokens of a text.**  A token is never shorter than a character, except for the end of the
text and those that come from indentation, of which there are at most four for each character. -/
def tokens (s : List Char) : Tokens :=
  Lexer.run (8 * s.length + 16) { cursor := ⟨s, {}⟩, obstacle := Obstacle.find? 0 0 s }

end Roster.Yaml
