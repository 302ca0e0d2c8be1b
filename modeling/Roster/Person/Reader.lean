/-
**Reading one person.**

The text of a single person is read more strictly than that of a dataset: every field has to be
there exactly once, with a text as its value.  Members under other keys are skipped.  An array of
twenty-one texts is a person as well, its items being the fields in their order.

Main definitions:

* `Roster.Person.toJson` — a person as an object, its members in the order of the fields;
* `Roster.Person.read` — the reader of persons;
* `Roster.Person.parse` — **a whole text as one person**.

Main results:

* `Roster.Person.members_eq` — what is written are the fields.
-/

import Roster.Json.Mismatch
import Roster.Json.Skip
import Roster.Person

set_option relaxedAutoImplicit false
set_option autoImplicit false

namespace Roster

open Json

namespace Person

/-! ### Writing -/

/-- The members of the object that a person is written as, in the order in which its fields are
declared. -/
def members (p : Person) : List (String × Value) :=
  Field.table.map fun f => (f.1, .string (p.text f.2))

/-- A person is written with its fields as members, in their order. -/
theorem members_eq (p : Person) : p.members = p.fields.map fun f => (f.1, .string f.2) := by
  rw [fields_eq_table, List.map_map]
  rfl

/-- A person as an object. -/
def toJson (p : Person) : Value := .object p.members

/-! ### Texts -/

/-- Reads a text. -/
def readText (s : Bytes) : Read String :=
  match skipBlank s with
  | [] => .error (.onto .endInValue [])
  | b :: rest => if b = 0x22 then readString rest else .error (wrongType "a string" b rest)

theorem readText_length {s r : Bytes} {t : String} (h : readText s = .ok (t, r)) :
    r.length < s.length := by
  have hs := skipBlank_length s
  unfold readText at h
  split at h
  · simp at h
  rename_i hb
  rw [hb, List.length_cons] at hs
  split at h
  · have := readString_length h
    omega
  · simp at h

/-! ### Persons as arrays -/

/-- The input after the end of an array; a fault says what stands there instead. -/
def readListEnd (s : Bytes) : Except Fault Bytes :=
  match skipBlank s with
  | [] => .error (.onto .endInList [])
  | b :: rest =>
    if b = 0x5d then .ok rest
    else if b = 0x2c then
      match skipBlank rest with
      | c :: rest =>
        .error (.onto (if c = 0x5d then .trailingComma else .trailingCharacters) (c :: rest))
      | [] => .error (.onto .trailingCharacters [])
    else .error (.onto .trailingCharacters (b :: rest))

/-- Reads the texts of some fields as the items of an array; `found` items have been read. -/
def readItems (first : Bool) (found : Nat) : List Field → Bytes → Read (List (Field × String))
  | [], s => .ok ([], s)
  | f :: fs, s =>
    match nextItem first s with
    | .error e => .error e
    | .ok (.finished rest) =>
      .error (.before (.wrongLength found "struct PersonRecord with 21 elements") rest)
    | .ok (.entry t) =>
      match readText t with
      | .error e => .error e
      | .ok (text, rest) =>
        match readItems false (found + 1) fs rest with
        | .error e => .error e
        | .ok (texts, rest) => .ok ((f, text) :: texts, rest)

/-- Reads a person as an array whose opening bracket has been read. -/
def readArray (s : Bytes) : Read (List (Field × String)) :=
  match readItems true 0 Field.all s with
  | .error e => .error e
  | .ok (texts, rest) =>
    match readListEnd rest with
    | .error e => .error e
    | .ok rest => .ok (texts, rest)

/-! ### Persons as objects -/

/-- The first field that has no text yet. -/
def missing? (texts : List (Field × String)) : Option Field :=
  Field.all.find? fun f => (texts.lookup f).isNone

/-- The fault of a key that occurs for the second time.  It lies after the end of the object if
that follows, else before what follows the key. -/
def duplicate (f : Field) (rest : Bytes) : Fault :=
  match skipBlank rest with
  | [] => .before (.duplicateField f.key) []
  | b :: rest =>
    if b = 0x7d then .before (.duplicateField f.key) rest
    else .seen (.duplicateField f.key) (b :: rest)

/-- Reads the members of an object: the texts of the fields, those read before being `texts`. -/
def readMembers (first : Bool) (texts : List (Field × String)) (s : Bytes) :
    Read (List (Field × String)) :=
  match _hn : nextMember first s with
  | .error e => .error e
  | .ok (.finished rest) =>
    match missing? texts with
    | some f => .error (.before (.missingField f.key) rest)
    | none => .ok (texts, rest)
  | .ok (.entry t) =>
    match _hk : readString (t.drop 1) with
    | .error e => .error e
    | .ok (key, rest) =>
      match Field.ofKey? key with
      | some f =>
        if (texts.lookup f).isSome then .error (duplicate f rest)
        else
          match _hc : readColon rest with
          | .error e => .error e
          | .ok rest =>
            match _ht : readText rest with
            | .error e => .error e
            | .ok (text, rest) => readMembers false ((f, text) :: texts) rest
      | none =>
        match _hc : readColon rest with
        | .error e => .error e
        | .ok rest =>
          match _hv : skipValue rest with
          | .error e => .error e
          | .ok rest => readMembers false texts rest
termination_by s.length
decreasing_by
  · have h₁ := nextMember_length _hn
    have h₂ := readString_length _hk
    have h₃ := readColon_length _hc
    have h₄ := readText_length _ht
    simp only [Next.rest, List.length_drop] at h₁ h₂
    omega
  · have h₁ := nextMember_length _hn
    have h₂ := readString_length _hk
    have h₃ := readColon_length _hc
    have h₄ := skipValue_length _hv
    simp only [Next.rest, List.length_drop] at h₁ h₂
    omega

/-! ### Persons -/

/-- The person with the given texts, each field having one. -/
def ofTexts (texts : List (Field × String)) : Person := ⟨fun f => (texts.lookup f).getD ""⟩

/-- Reads a person from the front of an input. -/
def read (s : Bytes) : Read Person :=
  match skipBlank s with
  | [] => .error (.onto .endInValue [])
  | b :: rest =>
    if b = 0x5b then
      match readArray rest with
      | .error e => .error e
      | .ok (texts, rest) => .ok (ofTexts texts, rest)
    else if b = 0x7b then
      match readMembers true [] rest with
      | .error e => .error e
      | .ok (texts, rest) => .ok (ofTexts texts, rest)
    else .error (wrongType "struct PersonRecord" b rest)

/-- **A whole text as one person.** -/
def parse (s : Bytes) : Except Fault Person :=
  match read s with
  | .error e => .error e
  | .ok (p, rest) =>
    match readEnd rest with
    | .error e => .error e
    | .ok () => .ok p

end Person

end Roster
