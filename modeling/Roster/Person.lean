/-
**Persons.**

A dataset is made of synthetic persons.  A person gives one text for each of twenty-one fields,
and depends on two things only: on a *template*, which holds the texts that all persons share, and
on the *index* of the person, from which its own name and all its references to other persons are
formed.

Main definitions:

* `Roster.Field` — the twenty-one fields, `Field.all` in the order of the dataset, and `Field.key`,
  the key a field has in a document;
* `Roster.Field.table` — the fields as they are declared, each under its key;
* `Roster.Template` — the shared texts;
* `Roster.Person` — a text for each field;
* `Roster.Person.ofIndex` — **the person of an index**;
* `Roster.Person.fields`, `Person.friends` — the keys with their texts, and the five friends.
-/

set_option relaxedAutoImplicit false
set_option autoImplicit false

namespace Roster

/-! ### Fields -/

/-- A field of a person.  There are nine descriptions and five friends. -/
inductive Field where
  /-- The identifier that other persons refer to. -/
  | id
  | name
  | address
  /-- One of nine descriptions. -/
  | description (k : Fin 9)
  | kind
  /-- A reference to one of five friends. -/
  | friend (k : Fin 5)
  | company
  | owner
  | department
  deriving DecidableEq, Repr

/-- A key that is numbered from its second occurrence on: `word`, `word1`, `word2`, … -/
def numbered (word : String) (k : Nat) : String :=
  if k = 0 then word else word ++ toString k

namespace Field

/-- All fields, in the order of the dataset. -/
def all : List Field :=
  [id, name, address] ++ (List.finRange 9).map description ++ [kind]
    ++ (List.finRange 5).map friend ++ [company, owner, department]

/-- The key of a field in a document. -/
def key : Field → String
  | id => "@id"
  | name => "name"
  | address => "address"
  | description k => numbered "description" k
  | kind => "type"
  | friend k => numbered "friend" k
  | company => "company"
  | owner => "owner"
  | department => "department"

/-- The keys of all fields, in the order of the dataset. -/
def keys : List String := all.map key

/-- The fields as they are declared, each under its key.  This list is written out, and is what
persons are written by. -/
def table : List (String × Field) :=
  [("@id", .id), ("name", .name), ("address", .address),
    ("description", .description 0), ("description1", .description 1),
    ("description2", .description 2), ("description3", .description 3),
    ("description4", .description 4), ("description5", .description 5),
    ("description6", .description 6), ("description7", .description 7),
    ("description8", .description 8), ("type", .kind),
    ("friend", .friend 0), ("friend1", .friend 1), ("friend2", .friend 2),
    ("friend3", .friend 3), ("friend4", .friend 4),
    ("company", .company), ("owner", .owner), ("department", .department)]

/-- The field that a key names. -/
def ofKey? (k : String) : Option Field := all.find? fun f => f.key = k

theorem mem_all (f : Field) : f ∈ all := by
  cases f <;> simp [all]

@[simp] theorem length_all : all.length = 21 := by decide

/-- The fields come in the order in which they are declared, under the same keys. -/
theorem all_eq_table : all.map (fun f => (f.key, f)) = table := by decide

end Field

/-! ### Templates -/

/-- The texts that all persons of a dataset share. -/
structure Template where
  address : String := "oslo"
  /-- The text of all nine descriptions. -/
  description : String :=
    "skfksfksg s lorem sjfnsj and the sun came up over the hills and it was nice"
  kind : String := "person"
  owner : String := "<owner1>"
  department : String := "<dept1443>"
  deriving DecidableEq, Inhabited, Repr

/-! ### Persons -/

/-- A person gives a text for each field. -/
structure Person where
  /-- The text of a field. -/
  text : Field → String

/-- The identifier of the person of an index. -/
def identifier (index : Nat) : String := "obj" ++ toString index

/-- A reference to the person of an index: its identifier between angle brackets. -/
def reference (index : Nat) : String := "<" ++ identifier index ++ ">"

/-- The distances from a person to its friends. -/
def friendOffsets : List Nat := (List.finRange 5).map fun k => k.val + 1

namespace Person

/-- **The person of an index.**  Its friends are the five persons that follow it. -/
def ofIndex (t : Template) (index : Nat) : Person where
  text
    | .id => identifier index
    | .name => "person " ++ toString index
    | .address => t.address
    | .description _ => t.description
    | .kind => t.kind
    | .friend k => reference (index + (k.val + 1))
    | .company => "<company" ++ toString (index + 1) ++ ">"
    | .owner => t.owner
    | .department => t.department

/-- The keys of a person with their texts, in the order of the dataset. -/
def fields (p : Person) : List (String × String) := Field.all.map fun f => (f.key, p.text f)

/-- The references to the five friends. -/
def friends (p : Person) : List String := (List.finRange 5).map fun k => p.text (.friend k)

@[simp] theorem length_fields (p : Person) : p.fields.length = 21 := by simp [fields]

theorem fields_eq_table (p : Person) : p.fields = Field.table.map fun x => (x.1, p.text x.2) := by
  rw [← Field.all_eq_table, List.map_map]
  rfl

/-- Persons with the same text in each field are equal. -/
theorem ext {p q : Person} (h : ∀ f, p.text f = q.text f) : p = q := by
  cases p
  cases q
  simp only [mk.injEq]
  exact funext h

/-- Persons with the same fields are equal. -/
theorem fields_injective {p q : Person} (h : p.fields = q.fields) : p = q := by
  refine ext fun f => ?_
  have hf := List.map_inj_left.1 h f (Field.mem_all f)
  exact (Prod.mk.injEq _ _ _ _ ▸ hf).2

instance : DecidableEq Person := fun p q =>
  if h : p.fields = q.fields then isTrue (fields_injective h)
  else isFalse fun e => h (e ▸ rfl)

end Person

end Roster
