/-
**The views of a person.**

A person is seen in several ways: as its fields with their keys, as the text of an object, as what is
read back from that text, as what the verifier compares, and as its five friends.  Each of them has an
order and keys of its own to keep, and of the twenty-one texts many are alike in any dataset, so that
two fields put in each other's place would go unnoticed there.  Here the views are brought together
for a person with any texts at all.

Main results:

* `Roster.Person.derives_text` — the members of the text of a person;
* `Roster.Person.views` — **the views of a person agree**, and the text determines the person.
-/

import Roster.Proofs.Dataset.Elements
import Roster.Proofs.Json.Written

set_option relaxedAutoImplicit false
set_option autoImplicit false

namespace Roster

open Json

/-! ### Fields and keys -/

namespace Person

variable (p : Person)

theorem keys_fields : p.fields.map Prod.fst = Field.keys := by
  rw [fields, List.map_map]
  rfl

/-- Under the key of a field stands its text. -/
theorem lookup_fields (f : Field) : p.fields.lookup f.key = some (p.text f) := by
  have h : ∀ fs : List Field, f ∈ fs →
      (fs.map fun f => (f.key, p.text f)).lookup f.key = some (p.text f) := by
    intro fs hf
    induction fs with
    | nil => cases hf
    | cons g fs ih =>
        rw [List.map_cons, List.lookup_cons]
        by_cases hgf : f = g
        · rw [hgf, beq_self_eq_true]
        · have hkey : f.key ≠ g.key := fun heq => hgf (Field.key_injective heq)
          rw [beq_false_of_ne hkey]
          exact ih ((List.mem_cons.1 hf).resolve_left hgf)
  exact h Field.all (Field.mem_all f)

/-- The friends stand under the five keys for them. -/
theorem friends_eq : p.friends.map some =
    ["friend", "friend1", "friend2", "friend3", "friend4"].map fun key => p.fields.lookup key := by
  have hkeys : ["friend", "friend1", "friend2", "friend3", "friend4"] =
      (List.finRange 5).map fun k => (Field.friend k).key := by decide
  rw [hkeys, friends, List.map_map, List.map_map]
  refine List.map_congr_left fun k _ => ?_
  exact (p.lookup_fields (.friend k)).symm

/-! ### Texts -/

/-- The text of a person is an object with the fields as its members, in their order. -/
theorem derives_text (style : Style) :
    Derives (.value (.object (p.fields.map fun f => (f.1, .string f.2)))) (p.toJson.text style) := by
  have hdatum : p.toJson.datum = .object (p.fields.map fun f => (f.1, .string f.2)) := by
    rw [toJson, Value.datum, memberData_eq, members_eq, List.map_map]
    rfl
  rw [← hdatum]
  exact p.toJson.derives style

theorem membersOf_text (style : Style) :
    membersOf (p.toJson.text style) = p.fields.map fun f => (f.1, .string f.2) := by
  rw [toJson, Json.membersOf_text (p.readable_members _), p.members_normal, members_eq]

/-- Read as a value the text of a person has no difference from the person. -/
theorem differences_text (style : Style) :
    ∃ v, Json.parse (p.toJson.text style) = .ok v ∧ differences p v = [] :=
  ⟨p.toJson.normal, (p.readable_toJson 126).parse_text style,
    (differences_eq_nil_iff p _).2 p.matches_normal⟩

/-- **The views of a person agree.**  The fields are those of the table; the text is an object whose
members are the fields, in their order and once each; it is read back as the person, and compared with
the person it has no difference; the friends are what stands under their five keys.  So two persons
have the same text in a layout exactly if they are the same. -/
theorem views (style : Style) :
    (p.fields = Field.table.map fun x => (x.1, p.text x.2)) ∧
      p.fields.map Prod.fst = Field.keys ∧ Field.keys.Nodup ∧
      Derives (.value (.object (p.fields.map fun f => (f.1, .string f.2))))
        (p.toJson.text style) ∧
      membersOf (p.toJson.text style) = (p.fields.map fun f => (f.1, .string f.2)) ∧
      Person.parse (p.toJson.text style) = .ok p ∧
      (∃ v, Json.parse (p.toJson.text style) = .ok v ∧ differences p v = []) ∧
      p.friends.map some =
        (["friend", "friend1", "friend2", "friend3", "friend4"].map fun key => p.fields.lookup key) ∧
      ∀ q : Person, q.toJson.text style = p.toJson.text style ↔ q = p := by
  refine ⟨p.fields_eq_table, p.keys_fields, Field.nodup_keys, p.derives_text style,
    p.membersOf_text style, p.parse_text style, p.differences_text style, p.friends_eq, ?_⟩
  intro q
  constructor
  · intro htext
    have hq := q.parse_text style
    rw [htext, p.parse_text style] at hq
    exact (Except.ok.inj hq).symm
  · rintro rfl
    rfl

end Person

end Roster
