/-
**Events.**

The tokens of a text are grouped into events: documents begin and end, and within them sequences
and mappings begin and end around scalars and aliases.  What has to come next is an *expectation*;
those of the enclosing collections wait on a stack.  Omitted nodes become void scalars.

Main definitions:

* `Roster.Yaml.Event` — an event and its place;
* `Roster.Yaml.Expectation` — what may come next;
* `Roster.Yaml.Grouper.step` — the next event;
* `Roster.Yaml.Events`, `Roster.Yaml.events` — **the events of a text**, up to its first fault.
-/

import Roster.Yaml.Token

set_option relaxedAutoImplicit false
set_option autoImplicit false

namespace Roster.Yaml

/-! ### Events -/

inductive Event.Kind where
  | streamEnd
  | documentStart
  | documentEnd
  | aliasNode (name : String)
  | scalar (anchor : Option String) (s : Scalar)
  | sequenceStart (anchor : Option String)
  | sequenceEnd
  | mappingStart (anchor : Option String)
  | mappingEnd
  deriving DecidableEq, Repr

structure Event where
  kind : Event.Kind
  /-- Where it begins. -/
  mark : Mark
  deriving DecidableEq, Repr

/-! ### What may come next -/

/-- What may come next.  The mark is the place where the collection was opened. -/
inductive Expectation where
  /-- A document, which after the first one has to begin with a marker or directives. -/
  | document (first : Bool)
  /-- The content of a document that began with a marker. -/
  | content
  | documentEnd
  /-- A node outside of brackets. -/
  | node
  /-- An entry of a block sequence, or its end. -/
  | blockEntry (opened : Mark)
  /-- An entry of a sequence that is indented no further than its mapping, or its end. -/
  | flatEntry
  | blockKey (opened : Mark)
  | blockValue (opened : Mark)
  | flowEntry (first : Bool) (opened : Mark)
  /-- The key of a mapping with one member within a flow sequence. -/
  | pairKey (opened : Mark)
  /-- The value of such a mapping. -/
  | pairValue (opened : Mark)
  /-- The end of such a mapping. -/
  | pairEnd (opened : Mark)
  | flowKey (first : Bool) (opened : Mark)
  /-- A value of a flow mapping; it is known to be omitted if `omitted`. -/
  | flowValue (omitted : Bool) (opened : Mark)
  | nothing
  deriving DecidableEq, Repr

/-- The state between two events. -/
structure Grouper where
  /-- The tokens that are still to be grouped. -/
  tokens : Tokens
  /-- What may come next. -/
  next : Expectation := .document true
  /-- What may come after the current node is complete. -/
  stack : List Expectation := []
  /-- What the handles of the document stand for. -/
  handles : List (String × Bytes) := []

/-- A step gives an event and the state after it. -/
abbrev Step := Except Fault (Event × Grouper)

namespace Grouper

/-- The next token; after the last one the text stays at its end. -/
def peek (g : Grouper) : Except Fault Token :=
  match g.tokens.items, g.tokens.fault with
  | t :: _, _ => .ok t
  | [], some e => .error e
  | [], none => .ok ⟨.streamEnd, {}⟩

/-- The state after the next token. -/
def drop (g : Grouper) : Grouper :=
  { g with tokens := { g.tokens with items := g.tokens.items.drop 1 } }

/-- The state with another expectation. -/
def expect (g : Grouper) (e : Expectation) : Grouper := { g with next := e }

/-- The state with an expectation for when the current node is complete. -/
def later (g : Grouper) (e : Expectation) : Grouper := { g with stack := e :: g.stack }

/-- The state after a complete node. -/
def pop (g : Grouper) : Grouper :=
  { g with next := g.stack.headD .nothing, stack := g.stack.drop 1 }

def void (g : Grouper) (m : Mark) : Step :=
  .ok (⟨.scalar none { text := "", style := .plain }, m⟩, g)

/-! ### Nodes -/

/-- What may come before a node. -/
structure Properties where
  start : Mark
  anchor : Option String := none
  /-- Its tag, and where that begins. -/
  tag : Option (Tag × Mark) := none

/-- Reads the anchor and the tag before a node; they come in either order. -/
def properties (g : Grouper) : Except Fault (Properties × Grouper) := do
  let t ← g.peek
  match t.kind with
  | .anchor name =>
    let g := g.drop
    let t' ← g.peek
    match t'.kind with
    | .tag tag =>
      return ({ start := t.mark, anchor := some name, tag := some (tag, t'.mark) }, g.drop)
    | _ => return ({ start := t.mark, anchor := some name }, g)
  | .tag tag =>
    let g := g.drop
    let t' ← g.peek
    match t'.kind with
    | .anchor name =>
      return ({ start := t.mark, anchor := some name, tag := some (tag, t.mark) }, g.drop)
    | _ => return ({ start := t.mark, tag := some (tag, t.mark) }, g)
  | _ => return ({ start := t.mark }, g)

def resolveTag (g : Grouper) (p : Properties) : Except Fault (Option Bytes) :=
  match p.tag with
  | none => .ok none
  | some (.full bytes, _) => .ok (some bytes)
  | some (.short handle suffix, mark) =>
    match g.handles.lookup handle with
    | some expansion => .ok (some (expansion ++ suffix))
    | none => .error (.during .node p.start .undefinedHandle mark)

/-- A node.  Outside of brackets it may be a block; as the key or value of a block mapping it may
also be a sequence that is indented no further. -/
def node (g : Grouper) (block flat : Bool) : Step := do
  let t ← g.peek
  match t.kind with
  | .aliasNode name => return (⟨.aliasNode name, t.mark⟩, g.pop.drop)
  | _ =>
    let (p, g) ← g.properties
    let t ← g.peek
    let tag ← g.resolveTag p
    let start := p.start
    match t.kind with
    | .blockEntry =>
      if flat then return (⟨.sequenceStart p.anchor, start⟩, g.expect .flatEntry)
      else omitted g p tag block t
    | .scalar text style =>
      return (⟨.scalar p.anchor { text, style, tag }, start⟩, g.pop.drop)
    | .flowSequenceStart =>
      return (⟨.sequenceStart p.anchor, start⟩, g.drop.expect (.flowEntry true t.mark))
    | .flowMappingStart =>
      return (⟨.mappingStart p.anchor, start⟩, g.drop.expect (.flowKey true t.mark))
    | .blockSequenceStart =>
      if block then
        return (⟨.sequenceStart p.anchor, start⟩, g.drop.expect (.blockEntry t.mark))
      else omitted g p tag block t
    | .blockMappingStart =>
      if block then return (⟨.mappingStart p.anchor, start⟩, g.drop.expect (.blockKey t.mark))
      else omitted g p tag block t
    | _ => omitted g p tag block t
where
  /-- A node without content, which is omitted only after an anchor or a tag. -/
  omitted (g : Grouper) (p : Properties) (tag : Option Bytes) (block : Bool) (t : Token) : Step :=
    if p.anchor.isSome || p.tag.isSome then
      .ok (⟨.scalar p.anchor { text := "", style := .plain, tag }, p.start⟩, g.pop)
    else
      .error (.during (if block then .blockNode else .flowNode) p.start .missingNode t.mark)

/-! ### Documents -/

/-- The handles that every document has. -/
def defaultHandles : List (String × Bytes) := [("!", utf8 "!"), ("!!", utf8 "tag:yaml.org,2002:")]

/-- Reads directives: one version at most, and each handle once. -/
def directives (tokens : List Token) (fault : Option Fault) (versioned : Bool)
    (handles : List (String × Bytes)) : Except Fault Grouper :=
  match tokens with
  | ⟨.directive (.version major minor), m⟩ :: rest =>
    if versioned then .error (.plainly .repeatedVersion m)
    else if major = 1 && (minor = 1 || minor = 2) then directives rest fault true handles
    else .error (.plainly .unsupportedVersion m)
  | ⟨.directive (.handle handle expansion), m⟩ :: rest =>
    if (handles.lookup handle).isSome then .error (.plainly .repeatedHandle m)
    else directives rest fault versioned (handles ++ [(handle, expansion)])
  -- a directive may redefine a default handle, so these are looked up last
  | rest => .ok { tokens := ⟨rest, fault⟩, handles := handles ++ defaultHandles }

/-- The state after the markers that end documents. -/
def dropMarkers (tokens : List Token) : List Token :=
  tokens.dropWhile fun t => t.kind = .documentEnd

/-- The token begins a document that is not implicit. -/
def isExplicit (t : Token) : Bool :=
  match t.kind with
  | .directive _ | .documentStart => true
  | _ => false

def document (g : Grouper) (first : Bool) : Step := do
  let g := if first then g
    else { g with tokens := { g.tokens with items := dropMarkers g.tokens.items } }
  let t ← g.peek
  if t.kind = .streamEnd then return (⟨.streamEnd, t.mark⟩, g.drop.expect .nothing)
  else if first && !isExplicit t then
    let g := { g with handles := defaultHandles }
    return (⟨.documentStart, t.mark⟩, (g.expect .node).later .documentEnd)
  else
    let g' ← directives g.tokens.items g.tokens.fault false []
    let t' ← g'.peek
    if t'.kind = .documentStart then
      return (⟨.documentStart, t.mark⟩, (g'.drop.expect .content).later .documentEnd)
    else .error (.plainly .missingDocumentStart t'.mark)

/-- The content of a document that began with a marker; it may be omitted. -/
def content (g : Grouper) : Step := do
  let t ← g.peek
  match t.kind with
  | .directive _ | .documentStart | .documentEnd | .streamEnd => g.pop.void t.mark
  | _ => g.node true false

def documentEnd (g : Grouper) : Step := do
  let t ← g.peek
  let g := if t.kind = .documentEnd then g.drop else g
  return (⟨.documentEnd, t.mark⟩, g.expect (.document false))

/-! ### Blocks -/

def blockEntry (g : Grouper) (opened : Mark) : Step := do
  let t ← g.peek
  match t.kind with
  | .blockEntry =>
    let g := g.drop
    let t' ← g.peek
    if t'.kind = .blockEntry || t'.kind = .blockEnd then g.void (t.mark.advance 1)
    else (g.later (.blockEntry opened)).node true false
  | .blockEnd => return (⟨.sequenceEnd, t.mark⟩, g.drop.pop)
  | _ => .error (.during .blockSequence opened .missingEntry t.mark)

/-- A member of a block mapping ends before this token. -/
def endsMember (t : Token) : Bool := t.kind = .key || t.kind = .value || t.kind = .blockEnd

/-- An entry of a sequence that is indented no further than its mapping, or its end. -/
def flatEntry (g : Grouper) : Step := do
  let t ← g.peek
  match t.kind with
  | .blockEntry =>
    let g := g.drop
    let t' ← g.peek
    if t'.kind = .blockEntry || endsMember t' then g.void (t.mark.advance 1)
    else (g.later .flatEntry).node true false
  | _ => return (⟨.sequenceEnd, t.mark⟩, g.pop)

def blockKey (g : Grouper) (opened : Mark) : Step := do
  let t ← g.peek
  match t.kind with
  | .key =>
    let g := g.drop
    let t' ← g.peek
    if endsMember t' then (g.expect (.blockValue opened)).void (t.mark.advance 1)
    else (g.later (.blockValue opened)).node true true
  | .blockEnd => return (⟨.mappingEnd, t.mark⟩, g.drop.pop)
  | _ => .error (.during .blockMapping opened .missingKey t.mark)

def blockValue (g : Grouper) (opened : Mark) : Step := do
  let t ← g.peek
  match t.kind with
  | .value =>
    let g := g.drop
    let t' ← g.peek
    if endsMember t' then (g.expect (.blockKey opened)).void (t.mark.advance 1)
    else (g.later (.blockKey opened)).node true true
  | _ => (g.expect (.blockKey opened)).void t.mark

/-! ### Brackets and braces -/

/-- Goes over the comma before an entry, unless it is the first one. -/
def comma (g : Grouper) (first : Bool) (fault : Mark → Fault) : Except Fault Grouper := do
  if first then return g
  let t ← g.peek
  if t.kind = .flowEntry then return g.drop else .error (fault t.mark)

def flowEntry (g : Grouper) (first : Bool) (opened : Mark) : Step := do
  let t ← g.peek
  if t.kind = .flowSequenceEnd then return (⟨.sequenceEnd, t.mark⟩, g.drop.pop)
  let g ← g.comma first (.during .flowSequence opened .missingComma)
  let t ← g.peek
  match t.kind with
  | .key => return (⟨.mappingStart none, t.mark⟩, g.drop.expect (.pairKey opened))
  | .flowSequenceEnd => return (⟨.sequenceEnd, t.mark⟩, g.drop.pop)
  | _ => (g.later (.flowEntry false opened)).node false false

/-- An entry of a flow sequence ends before this token. -/
def endsEntry (t : Token) : Bool := t.kind = .flowEntry || t.kind = .flowSequenceEnd

/-- The key of a mapping with one member; an omitted one takes the token after it. -/
def pairKey (g : Grouper) (opened : Mark) : Step := do
  let t ← g.peek
  if t.kind = .value || endsEntry t then
    (g.drop.expect (.pairValue opened)).void (t.mark.advance 1)
  else (g.later (.pairValue opened)).node false false

def pairValue (g : Grouper) (opened : Mark) : Step := do
  let t ← g.peek
  if t.kind = .value then
    let g := g.drop
    let t' ← g.peek
    if endsEntry t' then (g.expect (.pairEnd opened)).void t'.mark
    else (g.later (.pairEnd opened)).node false false
  else (g.expect (.pairEnd opened)).void t.mark

def pairEnd (g : Grouper) (opened : Mark) : Step := do
  let t ← g.peek
  return (⟨.mappingEnd, t.mark⟩, g.expect (.flowEntry false opened))

/-- A member of a flow mapping ends before this token. -/
def endsFlowMember (t : Token) : Bool := t.kind = .flowEntry || t.kind = .flowMappingEnd

def flowKey (g : Grouper) (first : Bool) (opened : Mark) : Step := do
  let t ← g.peek
  if t.kind = .flowMappingEnd then return (⟨.mappingEnd, t.mark⟩, g.drop.pop)
  let g ← g.comma first (.during .flowMapping opened .missingCommaInBraces)
  let t ← g.peek
  match t.kind with
  | .key =>
    let g := g.drop
    let t' ← g.peek
    if t'.kind = .value || endsFlowMember t' then
      (g.expect (.flowValue false opened)).void t'.mark
    else (g.later (.flowValue false opened)).node false false
  | .flowMappingEnd => return (⟨.mappingEnd, t.mark⟩, g.drop.pop)
  | _ => (g.later (.flowValue true opened)).node false false

def flowValue (g : Grouper) (omitted : Bool) (opened : Mark) : Step := do
  let t ← g.peek
  if !omitted && t.kind = .value then
    let g := g.drop
    let t' ← g.peek
    if endsFlowMember t' then (g.expect (.flowKey false opened)).void t'.mark
    else (g.later (.flowKey false opened)).node false false
  else (g.expect (.flowKey false opened)).void t.mark

/-! ### All events -/

def step (g : Grouper) : Step :=
  match g.next with
  | .document first => g.document first
  | .content => g.content
  | .documentEnd => g.documentEnd
  | .node => g.node true false
  | .blockEntry opened => g.blockEntry opened
  | .flatEntry => g.flatEntry
  | .blockKey opened => g.blockKey opened
  | .blockValue opened => g.blockValue opened
  | .flowEntry first opened => g.flowEntry first opened
  | .pairKey opened => g.pairKey opened
  | .pairValue opened => g.pairValue opened
  | .pairEnd opened => g.pairEnd opened
  | .flowKey first opened => g.flowKey first opened
  | .flowValue omitted opened => g.flowValue omitted opened
  | .nothing => .ok (⟨.streamEnd, {}⟩, g)

end Grouper

/-- The events of a text up to its first fault, if it has one. -/
structure Events where
  items : List Event
  /-- The fault after them. -/
  fault : Option Fault := none

/-- Takes steps up to the end of the text. -/
def Grouper.run : Nat → Grouper → Events
  | 0, _ => { items := [] }
  | steps + 1, g =>
    match g.step with
    | .error e => { items := [], fault := some e }
    | .ok (e, g) =>
      if e.kind = .streamEnd then { items := [e] }
      else
        let more := run steps g
        { more with items := e :: more.items }

/-- **The events of a text.**  There are at most a few for each token. -/
def events (s : List Char) : Events :=
  let tokens := tokens s
  Grouper.run (8 * tokens.items.length + 16) { tokens }

end Roster.Yaml
