/-
**Persons of another template.**

A person has a text from its template in thirteen fields, and the five members of a template feed
fields of their own.  So a dataset that is verified with another template than it was written with
is wrong at each position, and wrong in the same way: the fields that differ are those that are fed
by the members in which the two templates differ.  The fields that are formed from the index are
never among them.

Main definitions:

* `Roster.Template.members` — the texts of a template with the keys of the fields that they feed;
* `Roster.Template.differences` — the differences between the persons of two templates.

Main results:

* `Roster.differences_of_templates` — **the differences of a person of another template**;
* `Roster.Template.differences_eq_nil_iff` — different templates are told apart;
* `Roster.ofValues_of_templates` — **the report on the persons of another template**;
* `Roster.verify_across_templates` — **a verification reports exactly how two templates differ**.
-/

import Roster.Proofs.Dataset.Agreement
import Roster.Proofs.Dataset.Rearrangement
import Roster.Proofs.Json.Compact

set_option relaxedAutoImplicit false
set_option autoImplicit false

namespace Roster

open Json

/-! ### Templates that differ -/

namespace Template

/-- The texts of a template, each with the keys of the fields that it feeds, in the order of the
dataset. -/
def members (t : Template) : List (List String × String) :=
  [(["address"], t.address),
    (["description", "description1", "description2", "description3", "description4",
      "description5", "description6", "description7", "description8"], t.description),
    (["type"], t.kind), (["owner"], t.owner), (["department"], t.department)]

/-- The differences in some fields, all of which should have one text and have another one. -/
def fedDifferences (keys : List String) (expected found : String) : List Difference :=
  if found = expected then []
  else keys.map fun key => ⟨key, expected, (Value.string found).compact⟩

/-- The differences to the persons of a template that those of another one have. -/
def differences (t found : Template) : List Difference :=
  (t.members.zip found.members).flatMap fun m => fedDifferences m.1.1 m.1.2 m.2.2

/-- No differences are found only if the templates are the same. -/
theorem differences_eq_nil_iff {t found : Template} : t.differences found = [] ↔ found = t := by
  cases t
  cases found
  simp [differences, members, fedDifferences]

end Template

/-- The differences between two persons in some fields. -/
def Person.differing (p q : Person) (fs : List Field) : List Difference :=
  (fs.filter fun f => decide (q.text f ≠ p.text f)).map fun f =>
    ⟨f.key, p.text f, (Value.string (q.text f)).compact⟩

namespace Person

variable {p q : Person}

theorem differing_append (fs gs : List Field) :
    p.differing q (fs ++ gs) = p.differing q fs ++ p.differing q gs := by
  rw [differing, List.filter_append, List.map_append, differing, differing]

/-- In fields with the same text no differences are found. -/
theorem differing_of_same {fs : List Field} (h : ∀ f ∈ fs, q.text f = p.text f) :
    p.differing q fs = [] := by
  rw [differing, List.map_eq_nil_iff, List.filter_eq_nil_iff]
  intro f hf
  simp [h f hf]

/-- Fields that are fed by one text of a template differ all together. -/
theorem differing_of_fed {fs : List Field} {expected found : String}
    (hexpected : ∀ f ∈ fs, p.text f = expected) (hfound : ∀ f ∈ fs, q.text f = found) :
    p.differing q fs = Template.fedDifferences (fs.map Field.key) expected found := by
  by_cases heq : found = expected
  · rw [Template.fedDifferences, if_pos heq]
    exact differing_of_same fun f hf => by rw [hfound f hf, hexpected f hf, heq]
  · have hall : fs.filter (fun f => decide (q.text f ≠ p.text f)) = fs := by
      rw [List.filter_eq_self]
      intro f hf
      simp [hfound f hf, hexpected f hf, heq]
    rw [differing, hall, Template.fedDifferences, if_neg heq, List.map_map]
    exact List.map_congr_left fun f hf => by rw [Function.comp_apply, hfound f hf, hexpected f hf]

end Person

/-- The fields that are formed from the index have nothing from a template. -/
theorem Person.text_ofIndex_of_isIndexed {f : Field} (h : f.isIndexed = true) (t t' : Template)
    (i : Nat) : (ofIndex t i).text f = (ofIndex t' i).text f := by
  cases f with
  | id | name | friend | company => rfl
  | _ => cases h

/-- **The differences of a person of another template** are those of the templates, whatever its
index is. -/
theorem differences_of_templates {t found : Template} {i : Nat} {v : Value}
    (h : (Person.ofIndex found i).Matches v) :
    differences (Person.ofIndex t i) v = t.differences found := by
  have hall : Field.all = [.id, .name] ++ [.address] ++ (List.finRange 9).map .description ++
      [.kind] ++ ((List.finRange 5).map .friend ++ [.company]) ++ [.owner] ++ [.department] := rfl
  have hindexed : ∀ fs : List Field, (∀ f ∈ fs, f.isIndexed = true) →
      (Person.ofIndex t i).differing (Person.ofIndex found i) fs = [] := fun fs hfs =>
    Person.differing_of_same fun f hf => Person.text_ofIndex_of_isIndexed (hfs f hf) found t i
  have hfed : ∀ (fs : List Field) (text : Template → String),
      (∀ t, ∀ f ∈ fs, (Person.ofIndex t i).text f = text t) →
      (Person.ofIndex t i).differing (Person.ofIndex found i) fs =
        Template.fedDifferences (fs.map Field.key) (text t) (text found) :=
    fun fs text htext => Person.differing_of_fed (htext t) (htext found)
  have hdescriptions : ((List.finRange 9).map Field.description).map Field.key =
      ["description", "description1", "description2", "description3", "description4",
        "description5", "description6", "description7", "description8"] := by decide
  rw [differences_of_matches _ h]
  show (Person.ofIndex t i).differing (Person.ofIndex found i) Field.all = _
  rw [hall]
  simp only [Person.differing_append]
  rw [hindexed [.id, .name] (by decide), hfed [.address] Template.address (by simp [Person.ofIndex]),
    hfed _ Template.description (by simp [Person.ofIndex]), hdescriptions,
    hfed [.kind] Template.kind (by simp [Person.ofIndex]),
    hindexed ((List.finRange 5).map .friend) (by decide), hindexed [.company] (by decide),
    hfed [.owner] Template.owner (by simp [Person.ofIndex]),
    hfed [.department] Template.department (by simp [Person.ofIndex])]
  simp [Template.differences, Template.members, Field.key]

/-- A difference between two templates is in a field that is not formed from the index, and what
was found there is the text of another string than the expected one. -/
theorem Template.mem_differences {t found : Template} {d : Difference}
    (h : d ∈ t.differences found) :
    d.field ∉ (Field.all.filter Field.isIndexed).map Field.key ∧
      ∃ s, d.actual = (Value.string s).compact ∧ s ≠ d.expected := by
  obtain ⟨m, hm, hd⟩ := List.mem_flatMap.1 h
  have hkeys : ∀ key ∈ m.1.1, key ∉ (Field.all.filter Field.isIndexed).map Field.key := by
    have hmember : m.1 ∈ t.members := (List.of_mem_zip hm).1
    rw [Field.keys_indexed]
    simp only [Template.members, List.mem_cons, List.not_mem_nil, or_false] at hmember
    obtain hmember | hmember | hmember | hmember | hmember := hmember <;>
      (rw [hmember]; simp only; decide)
  rw [fedDifferences] at hd
  split at hd
  · cases hd
  · rename_i hne
    obtain ⟨key, hkey, rfl⟩ := List.mem_map.1 hd
    exact ⟨hkeys key hkey, _, rfl, hne⟩

/-! ### Reports -/

/-- Each of some values that all differ in the same way has its row. -/
theorem mismatches_of_same {t : Template} {ds : List Difference} (hds : ds ≠ []) (index : Nat)
    {vs : List Value} (h : ∀ i (hi : i < vs.length), differencesAt t (index + i) vs[i] = ds) :
    mismatches t index vs = (List.range vs.length).map fun i => ⟨index + i, ds⟩ := by
  induction vs generalizing index with
  | nil => rfl
  | cons v vs ih =>
      have hv : differencesAt t index v = ds := h 0 (by simp)
      have hrest := ih (index + 1) fun i hi => by
        have hi' := h (i + 1) (by simpa using hi)
        rw [show index + (i + 1) = index + 1 + i by omega] at hi'
        simpa using hi'
      have hrow : (if ds.isEmpty then [] else [(⟨index, ds⟩ : Row)]) = [⟨index, ds⟩] :=
        if_neg (by simpa using hds)
      rw [mismatches, hv, hrow, hrest, List.length_cons, List.range_succ_eq_map, List.map_cons,
        List.map_map, List.singleton_append]
      refine congrArg _ (List.map_congr_left fun i _ => ?_)
      rw [Function.comp_apply, show index + 1 + i = index + (i + 1) by omega]

/-- **The report on the persons of another template** has each of them wrong, in the same way. -/
theorem ofValues_of_templates {t found : Template} (hne : found ≠ t) {count : Nat}
    (hcount : count ≤ personCount) (expected : Nat) :
    Report.ofValues t expected (personValues found count) =
      { expected, found := count, mismatched := count
        rows := (List.range (min 10 count)).map fun i => ⟨i, t.differences found⟩ } := by
  have hsame : ∀ i (hi : i < (personValues found count).length),
      differencesAt t (0 + i) (personValues found count)[i] = t.differences found := by
    intro i hi
    have hlt : i < count := by simpa using hi
    have hget : (personValues found count)[i] = (Person.ofIndex found i).toJson.normal := by
      simp [personValues, personsFrom]
    rw [Nat.zero_add, differencesAt_of_lt t (Nat.lt_of_lt_of_le hlt hcount), hget]
    exact differences_of_templates (Person.matches_normal _)
  have hrows := mismatches_of_same (mt Template.differences_eq_nil_iff.1 hne) 0 hsame
  simp [Report.ofValues, hrows, ← List.map_take, List.take_range, Report.maxRows]

/-! ### Files -/

/-- **A verification reports exactly how two templates differ.**  The persons of one template are
all right for the same template and all wrong for any other one; the differences are those of the
templates at each of the kept positions, none of them is in a field that is formed from the index,
and what is shown is the JSON text of the string that was found.  The report is that on the text of
the dataset, and on the file that it has been written to. -/
theorem verify_across_templates (written t : Template) {count : Nat} (hcount : count ≤ personCount)
    (expected : Nat) :
    ∃ r : Report,
      (∀ style, (verifyContent t expected (dataset style written count)).2 = .ok r) ∧
      (∀ (o : PopulateOptions) (path : Path) (w w' : World) (metrics : Metrics),
        o.template = written → w.store.FileOrNothing path →
        (populate o path count : StateM World (Except PopulateError Metrics)).run w =
          (.ok metrics, w') →
        ((verify t path expected : StateM World _).run w').1 = .ok r) ∧
      r.found = count ∧
      (written = t → r.mismatched = 0 ∧ r.rows = []) ∧
      (written ≠ t → r.mismatched = count ∧
        r.rows = (List.range (min 10 count)).map fun i => ⟨i, t.differences written⟩) ∧
      ∀ row ∈ r.rows, ∀ d ∈ row.differences,
        d.field ∉ ["@id", "name", "friend", "friend1", "friend2", "friend3", "friend4",
          "company"] ∧
        ∃ s, utf8 d.actual = stringText s ∧ parse (utf8 d.actual) = .ok (.string s) ∧
          s ≠ d.expected := by
  have hcontent : ∀ style, (verifyContent t expected (dataset style written count)).2 =
      .ok (Report.ofValues t expected (personValues written count)) := by
    intro style
    rw [verifyContent_eq_ok_iff]
    exact ⟨_, parse_dataset style written count, rfl⟩
  refine ⟨_, hcontent, ?_, length_personValues written count, ?_, ?_, ?_⟩
  · rintro o path w w' metrics rfl hfile hrun
    rw [verify_run (populate_content hfile hrun).2, List.toList_data_toByteArray,
      outcomeOf_eq_ok_iff]
    exact hcontent o.style
  · rintro rfl
    rw [ofValues_personValues hcount]
    exact ⟨rfl, rfl⟩
  · intro hne
    rw [ofValues_of_templates hne hcount]
    exact ⟨rfl, rfl⟩
  · intro row hrow d hd
    have hds : d ∈ t.differences written := by
      by_cases heq : written = t
      · subst heq
        rw [ofValues_personValues hcount] at hrow
        cases hrow
      · rw [ofValues_of_templates heq hcount] at hrow
        obtain ⟨i, -, rfl⟩ := List.mem_map.1 hrow
        exact hd
    obtain ⟨hfield, s, hs, hne⟩ := Template.mem_differences hds
    rw [Field.keys_indexed] at hfield
    refine ⟨hfield, s, ?_, ?_, hne⟩
    · rw [hs, Value.utf8_compact, text_string]
    · rw [hs, (Readable.string maxDepth s).parse_compact]
      simp [Value.normal]

/-- Two persons with the address `oslo`, where `bergen` is expected. -/
theorem verify_across_templates_address :
    2 ≤ personCount ∧
      (verifyContent { address := "bergen" } 2 (dataset .spaced {} 2)).2.map Report.rows =
        .ok [⟨0, [⟨"address", "bergen", (Value.string "oslo").compact⟩]⟩,
          ⟨1, [⟨"address", "bergen", (Value.string "oslo").compact⟩]⟩] := by
  have hcount : 2 ≤ personCount := by decide
  obtain ⟨r, hr, -, -, -, hother, -⟩ :=
    verify_across_templates {} { address := "bergen" } hcount 2
  obtain ⟨-, hrows⟩ := hother (by decide)
  refine ⟨hcount, ?_⟩
  rw [hr, Except.map, hrows]
  rfl

end Roster
