/-
**Presets are chosen by name.**

A list of presets is taken only if no two of them have the same name; otherwise the first preset is
told whose name has been used before it.  Looking for a name finds the first preset that has it, so
the presets that stand behind another one of the same name could never be chosen.  Where the names
are all different there are none of these: a name stands for one preset, a list of names stands for
the presets in its order, and the first name that stands for none is told.

Main definitions:

* `Roster.PresetSet.FirstRepeated` — the name of the first preset whose name has been used before;
* `Roster.PresetSet.StandsFor` — a name stands for a preset, the only one of that name;
* `Roster.PresetSet.FirstUnknown` — the first of some names that stands for no preset.

Main results:

* `Roster.PresetSet.repeated?_eq_none_iff`, `Roster.PresetSet.repeated?_eq_some_iff` — which lists
  are taken, and what is told of the others;
* `Roster.PresetSet.get?_eq_some_iff` — looking for a name;
* `Roster.PresetSet.getAll_eq_ok_iff`, `Roster.PresetSet.getAll_eq_error_iff` — looking for names,
  by induction on their list;
* `Roster.PresetSet.exists_select_iff` — presets are chosen exactly if all names are known;
* `Roster.PresetSet.selection_law` — **the law of validation and choice**.
-/

import Mathlib.Data.List.Forall2
import Mathlib.Data.List.Nodup
import Roster.Preset.Load

set_option relaxedAutoImplicit false
set_option autoImplicit false

namespace Roster.PresetSet

variable {s : PresetSet} {name : String} {p : Preset} {only : List String} {ps : List Preset}

/-! ### Places in lists -/

/-- An element of a list with a first one is that one or stands further on. -/
theorem exists_split_cons_iff {α : Type} {a x : α} {l : List α} {P : List α → Prop} :
    (∃ earlier later, a :: l = earlier ++ x :: later ∧ P earlier) ↔
      (a = x ∧ P []) ∨ ∃ earlier later, l = earlier ++ x :: later ∧ P (a :: earlier) := by
  constructor
  · rintro ⟨earlier, later, hl, hP⟩
    cases earlier with
    | nil => exact .inl ⟨(List.cons.inj hl).1, hP⟩
    | cons b earlier =>
        obtain ⟨rfl, htail⟩ := List.cons.inj hl
        exact .inr ⟨earlier, later, htail, hP⟩
  · rintro (⟨rfl, hP⟩ | ⟨earlier, later, rfl, hP⟩)
    · exact ⟨[], l, rfl, hP⟩
    · exact ⟨a :: earlier, later, rfl, hP⟩

/-! ### Repeated names -/

section

variable {n : String} {seen names : List String}

theorem repeatedAfter_cons_of_mem (h : n ∈ seen) : repeatedAfter seen (n :: names) = some n := by
  rw [repeatedAfter, if_pos (by simpa using h)]

theorem repeatedAfter_cons_of_notMem (h : n ∉ seen) :
    repeatedAfter seen (n :: names) = repeatedAfter (n :: seen) names := by
  rw [repeatedAfter, if_neg (by simpa using h)]

theorem repeatedAfter_eq_none_iff :
    repeatedAfter seen names = none ↔ names.Nodup ∧ ∀ n ∈ names, n ∉ seen := by
  induction names generalizing seen with
  | nil => simp [repeatedAfter]
  | cons n names ih =>
      by_cases hn : n ∈ seen
      · simp [repeatedAfter_cons_of_mem hn, hn]
      · rw [repeatedAfter_cons_of_notMem hn, ih, List.nodup_cons, List.forall_mem_cons]
        constructor
        · rintro ⟨hnodup, hfresh⟩
          refine ⟨⟨fun hmem => hfresh n hmem List.mem_cons_self, hnodup⟩, hn, ?_⟩
          exact fun m hm hseen => hfresh m hm (List.mem_cons_of_mem n hseen)
        · rintro ⟨⟨hmem, hnodup⟩, -, hfresh⟩
          refine ⟨hnodup, fun m hm hseen => ?_⟩
          rcases List.mem_cons.1 hseen with rfl | hseen
          · exact hmem hm
          · exact hfresh m hm hseen

/-- The name that is told stands behind names that are all new, and is not new itself. -/
theorem repeatedAfter_eq_some_iff :
    repeatedAfter seen names = some name ↔
      ∃ earlier later, names = earlier ++ name :: later ∧ (name ∈ earlier ∨ name ∈ seen) ∧
        repeatedAfter seen earlier = none := by
  induction names generalizing seen with
  | nil => simp [repeatedAfter]
  | cons n names ih =>
      rw [exists_split_cons_iff]
      by_cases hn : n ∈ seen
      · -- the first name is not new, so it is the one, and no later one is looked at
        simp only [repeatedAfter_cons_of_mem hn, Option.some.injEq, reduceCtorEq, and_false,
          exists_false, or_false]
        constructor
        · rintro rfl
          exact ⟨rfl, .inr hn, rfl⟩
        · exact And.left
      · have hfirst : ¬(n = name ∧ (name ∈ [] ∨ name ∈ seen) ∧ repeatedAfter seen [] = none) := by
          rintro ⟨rfl, hmem, -⟩
          exact hn (hmem.resolve_left List.not_mem_nil)
        have hmem : ∀ earlier : List String,
            (name ∈ n :: earlier ∨ name ∈ seen) ↔ (name ∈ earlier ∨ name ∈ n :: seen) := by
          intro earlier
          rw [List.mem_cons, List.mem_cons, or_assoc, or_left_comm]
        simp only [repeatedAfter_cons_of_notMem hn, ih, hfirst, hmem, false_or]

end

/-- No name is repeated exactly if no two presets have the same one. -/
theorem repeated?_eq_none_iff : s.repeated? = none ↔ s.names.Nodup := by
  rw [repeated?, repeatedAfter_eq_none_iff]
  simp

/-- The name is that of the first preset whose name has been used before it: the presets up to that
one have names of their own, and it has one of these names. -/
def FirstRepeated (s : PresetSet) (name : String) : Prop :=
  ∃ earlier p later, s.presets = earlier ++ p :: later ∧ p.name = name ∧
    name ∈ earlier.map Preset.name ∧ (earlier.map Preset.name).Nodup

/-- The name that is told is that of the first preset whose name has been used before it. -/
theorem repeated?_eq_some_iff : s.repeated? = some name ↔ s.FirstRepeated name := by
  rw [repeated?, repeatedAfter_eq_some_iff]
  constructor
  · rintro ⟨earlier, later, hnames, hmem, hnew⟩
    obtain ⟨before, rest, hpresets, rfl, hrest⟩ := List.map_eq_append_iff.1 hnames
    obtain ⟨p, after, rfl, rfl, -⟩ := List.map_eq_cons_iff.1 hrest
    exact ⟨before, p, after, hpresets, rfl, hmem.resolve_right List.not_mem_nil,
      (repeatedAfter_eq_none_iff.1 hnew).1⟩
  · rintro ⟨earlier, p, later, hpresets, rfl, hmem, hnodup⟩
    refine ⟨earlier.map Preset.name, later.map Preset.name, ?_, .inl hmem, ?_⟩
    · rw [names, hpresets, List.map_append, List.map_cons]
    · exact repeatedAfter_eq_none_iff.2 ⟨hnodup, fun _ _ => List.not_mem_nil⟩

/-! ### Validation -/

theorem parse_eq_ok_iff {text : String} {set : PresetSet} :
    parse text = .ok set ↔ ofYaml text = .ok set ∧ set.names.Nodup := by
  unfold parse
  cases ofYaml text with
  | error e => simp
  | ok set' =>
      dsimp only
      cases hrepeated : set'.repeated? with
      | none =>
          simp only [Except.ok.injEq]
          refine ⟨?_, And.left⟩
          rintro rfl
          exact ⟨rfl, repeated?_eq_none_iff.1 hrepeated⟩
      | some name =>
          simp only [reduceCtorEq, Except.ok.injEq, false_iff, not_and]
          rintro rfl hnodup
          rw [repeated?_eq_none_iff.2 hnodup] at hrepeated
          cases hrepeated

/-- A text of presets is refused for the first preset whose name has been used before, and for
nothing else. -/
theorem parse_eq_error_iff {text : String} (h : ofYaml text = .ok s) {e : PresetError} :
    parse text = .error e ↔ ∃ name, s.FirstRepeated name ∧ e = .duplicate name := by
  unfold parse
  rw [h]
  dsimp only
  cases hrepeated : s.repeated? with
  | none =>
      simp only [reduceCtorEq, false_iff, not_exists, not_and]
      intro name hfirst
      rw [repeated?_eq_some_iff.2 hfirst] at hrepeated
      cases hrepeated
  | some name =>
      simp only [Except.error.injEq]
      constructor
      · rintro rfl
        exact ⟨name, repeated?_eq_some_iff.1 hrepeated, rfl⟩
      · rintro ⟨name', hfirst, rfl⟩
        rw [repeated?_eq_some_iff.2 hfirst] at hrepeated
        rw [Option.some.inj hrepeated]

/-! ### One name -/

theorem isSome_get?_iff : (s.get? name).isSome = true ↔ name ∈ s.names := by
  rw [get?, List.find?_isSome, names, List.mem_map]
  simp

/-- The name stands for the preset: it is the only one of that name. -/
structure StandsFor (s : PresetSet) (name : String) (p : Preset) : Prop where
  mem : p ∈ s.presets
  name_eq : p.name = name
  /-- No other preset has the name. -/
  only : ∀ q ∈ s.presets, q.name = name → q = p

/-- Where the names are all different, a preset is the only one of its name. -/
theorem standsFor_of_mem (hs : s.names.Nodup) (hp : p ∈ s.presets) : s.StandsFor p.name p where
  mem := hp
  name_eq := rfl
  only := fun _ hq hname => List.inj_on_of_nodup_map hs hq hp hname

/-- **Where the names are all different, the preset that is found is the one that the name stands
for.** -/
theorem get?_eq_some_iff (hs : s.names.Nodup) : s.get? name = some p ↔ s.StandsFor name p := by
  constructor
  · intro h
    obtain ⟨rfl, hp⟩ := mem_names_of_get? h
    exact standsFor_of_mem hs hp
  · intro h
    have hname : name ∈ s.names := List.mem_map.2 ⟨p, h.mem, h.name_eq⟩
    obtain ⟨q, hq⟩ := Option.isSome_iff_exists.1 (isSome_get?_iff.2 hname)
    obtain ⟨hqname, hqmem⟩ := mem_names_of_get? hq
    rw [hq, h.only q hqmem hqname]

theorem get?_of_mem (hs : s.names.Nodup) (hp : p ∈ s.presets) : s.get? p.name = some p :=
  (get?_eq_some_iff hs).2 (standsFor_of_mem hs hp)

/-! ### Lists of names -/

/-- Presets are found for names in the order of the names, one for each. -/
theorem getAll_eq_ok_iff :
    s.getAll only = .ok ps ↔ List.Forall₂ (fun name p => s.get? name = some p) only ps := by
  induction only generalizing ps with
  | nil => simp [getAll, eq_comm]
  | cons name only ih =>
      rw [getAll]
      cases hget : s.get? name with
      | none => cases ps <;> simp [hget]
      | some p =>
          cases hall : s.getAll only with
          | error e =>
              simp only [hall, reduceCtorEq, false_iff] at ih ⊢
              intro h
              cases h with
              | cons _ htail => exact ih htail
          | ok ps' =>
              cases ps with
              | nil => simp
              | cons q ps => simp [hget, ← ih, hall]

/-- The name is the first of some names that stands for no preset. -/
def FirstUnknown (s : PresetSet) (only : List String) (name : String) : Prop :=
  ∃ earlier later, only = earlier ++ name :: later ∧ (∀ n ∈ earlier, n ∈ s.names) ∧
    name ∉ s.names

theorem firstUnknown_cons_iff {n : String} :
    s.FirstUnknown (n :: only) name ↔
      (n = name ∧ name ∉ s.names) ∨ (n ∈ s.names ∧ s.FirstUnknown only name) := by
  rw [FirstUnknown, exists_split_cons_iff]
  refine or_congr (by simp) ?_
  simp only [FirstUnknown, List.forall_mem_cons]
  constructor
  · rintro ⟨earlier, later, honly, ⟨hn, hknown⟩, hno⟩
    exact ⟨hn, earlier, later, honly, hknown, hno⟩
  · rintro ⟨hn, earlier, later, honly, hknown, hno⟩
    exact ⟨earlier, later, honly, ⟨hn, hknown⟩, hno⟩

/-- The name that is told is the first that stands for no preset. -/
theorem getAll_eq_error_iff : s.getAll only = .error ⟨name⟩ ↔ s.FirstUnknown only name := by
  induction only with
  | nil => simp [getAll, FirstUnknown]
  | cons n only ih =>
      rw [getAll, firstUnknown_cons_iff, ← ih]
      cases hget : s.get? n with
      | none =>
          have hno : n ∉ s.names := by simp [← isSome_get?_iff, hget]
          simp only [Except.error.injEq, UnknownPreset.mk.injEq, hno, false_and, or_false]
          constructor
          · rintro rfl
            exact ⟨rfl, hno⟩
          · exact And.left
      | some p =>
          have hyes : n ∈ s.names := by simp [← isSome_get?_iff, hget]
          have hfirst : ¬(n = name ∧ name ∉ s.names) := by
            rintro ⟨rfl, hno⟩
            exact hno hyes
          simp only [hyes, hfirst, true_and, false_or]
          cases s.getAll only <;> simp

/-- The presets of some names are found exactly if all names are known, wherever they stand. -/
theorem exists_getAll_iff :
    (∃ presets, s.getAll only = .ok presets) ↔ ∀ name ∈ only, name ∈ s.names := by
  induction only with
  | nil => simp [getAll]
  | cons name only ih =>
      rw [List.forall_mem_cons, ← ih, ← isSome_get?_iff, getAll]
      cases s.get? name with
      | none => simp
      | some p => cases s.getAll only <;> simp

/-- The presets of all names are all presets, in their order. -/
theorem getAll_names (hs : s.names.Nodup) : s.getAll s.names = .ok s.presets := by
  rw [getAll_eq_ok_iff, names, List.forall₂_map_left_iff, List.forall₂_same]
  exact fun p hp => get?_of_mem hs hp

/-! ### Choices -/

theorem select_of_ne_nil (h : only ≠ []) (includeDisabled : Bool) :
    s.select only includeDisabled = s.getAll only := by
  rw [select, if_neg (by simpa using h)]

/-- **Presets are chosen exactly if all names are known.** -/
theorem exists_select_iff (includeDisabled : Bool) :
    (∃ presets, s.select only includeDisabled = .ok presets) ↔ ∀ name ∈ only, name ∈ s.names := by
  cases only with
  | nil => simp [select]
  | cons name only => exact exists_getAll_iff

/-- **The law of validation and choice.**  Names that are not all different are found out, and the
first preset is told whose name has been used before it; a text that stands for these presets is
refused for that and for nothing else.  Where the names are all different each preset is found by its
name.  A list of names then stands for a list of presets in the same order, enabled or not, and the
first name that stands for no preset is told.  Without names the presets that are enabled are chosen,
or all of them, in their order; and all names stand for all presets. -/
theorem selection_law (s : PresetSet) :
    ((∃ name, s.repeated? = some name) ↔ ¬s.names.Nodup) ∧
      (∀ name, s.repeated? = some name ↔ s.FirstRepeated name) ∧
      (∀ text, ofYaml text = .ok s →
        (parse text = .ok s ↔ s.names.Nodup) ∧
          ∀ e, parse text = .error e ↔ ∃ name, s.FirstRepeated name ∧ e = .duplicate name) ∧
      (s.names.Nodup →
        (∀ p ∈ s.presets, s.get? p.name = some p) ∧
          (∀ only, only ≠ [] → ∀ includeDisabled,
            (∀ ps, s.select only includeDisabled = .ok ps ↔ List.Forall₂ s.StandsFor only ps) ∧
              ((∃ ps, s.select only includeDisabled = .ok ps) ↔ ∀ name ∈ only, name ∈ s.names) ∧
              ∀ name, s.select only includeDisabled = .error ⟨name⟩ ↔ s.FirstUnknown only name) ∧
          (∀ includeDisabled, ∃ ps, s.select [] includeDisabled = .ok ps ∧ ps.Sublist s.presets ∧
            (∀ p, p ∈ ps ↔ p ∈ s.presets ∧ (p.enabled = true ∨ includeDisabled = true)) ∧
            (includeDisabled = true → ps = s.presets)) ∧
          (s.presets ≠ [] → ∀ includeDisabled, s.select s.names includeDisabled = .ok s.presets)) := by
  refine ⟨?_, fun name => repeated?_eq_some_iff, ?_, fun hs => ⟨?_, ?_, ?_, ?_⟩⟩
  · rw [← repeated?_eq_none_iff, ← Option.isSome_iff_exists, Option.isSome_iff_ne_none]
  · intro text htext
    exact ⟨parse_eq_ok_iff.trans (and_iff_right htext), fun e => parse_eq_error_iff htext⟩
  · exact fun p hp => get?_of_mem hs hp
  · intro only honly includeDisabled
    have hfound : ∀ ps, List.Forall₂ (fun name p => s.get? name = some p) only ps ↔
        List.Forall₂ s.StandsFor only ps := by
      intro ps
      simp only [get?_eq_some_iff hs]
    refine ⟨fun ps => ?_, exists_select_iff includeDisabled, fun name => ?_⟩
    · rw [select_of_ne_nil honly, getAll_eq_ok_iff, hfound]
    · rw [select_of_ne_nil honly, getAll_eq_error_iff]
  · intro includeDisabled
    refine ⟨_, rfl, List.filter_sublist, fun p => ?_, ?_⟩
    · rw [List.mem_filter, Bool.or_eq_true]
    · rintro rfl
      exact List.filter_eq_self.2 fun p _ => Bool.or_true _
  · intro hpresets includeDisabled
    have hnames : s.names ≠ [] := by simpa [names] using hpresets
    rw [select_of_ne_nil hnames, getAll_names hs]

/-- Two presets of one name are refused; of the standard presets a disabled one is chosen twice by its
name, the first of two unknown names is told, and without names the disabled one is left out. -/
theorem selection_law_standard :
    parse "{presets: [{name: a, file: a.json, count: 1}, {name: a, file: b.json, count: 2}]}" =
        .error (.duplicate "a") ∧
      (∃ p, builtin.select ["sample10m", "sample1", "sample10m"] false =
          .ok [p, { name := "sample1", file := ⟨"sample1.json"⟩, count := 1 }, p] ∧
        p.enabled = false ∧ builtin.get? p.name = some p) ∧
      builtin.select ["sample1", "nope", "none"] true = .error ⟨"nope"⟩ ∧
      (∃ ps, builtin.select [] false = .ok ps ∧ ∀ p ∈ ps, p.enabled = true) ∧
      builtin.select builtin.names false = .ok builtin.presets := by
  let p : Preset := { name := "a", file := ⟨"a.json"⟩, count := 1 }
  let q : Preset := { name := "a", file := ⟨"b.json"⟩, count := 2 }
  let large : Preset :=
    { name := "sample10m", file := ⟨"sample10m.json"⟩, count := 10000000, enabled := false }
  have hdecoded : ofYaml
      "{presets: [{name: a, file: a.json, count: 1}, {name: a, file: b.json, count: 2}]}" =
        .ok { presets := [p, q] } := by decide +kernel
  obtain ⟨-, -, hparse, -⟩ := selection_law { presets := [p, q] }
  obtain ⟨-, -, -, hchoice⟩ := selection_law builtin
  obtain ⟨hget, hnamed, hall, heach⟩ := hchoice (by decide)
  refine ⟨?_, ⟨large, ?_, rfl, hget large (by decide)⟩, ?_, ?_, heach (by decide) false⟩
  · refine ((hparse _ hdecoded).2 _).2 ⟨"a", ⟨[p], q, [], rfl, rfl, ?_, ?_⟩, rfl⟩ <;> decide
  · obtain ⟨hok, -, -⟩ := hnamed ["sample10m", "sample1", "sample10m"] (by decide) false
    have hlarge : builtin.StandsFor "sample10m" large := ⟨by decide, rfl, by decide⟩
    exact (hok _).2 (.cons hlarge (.cons ⟨by decide, rfl, by decide⟩ (.cons hlarge .nil)))
  · obtain ⟨-, -, herror⟩ := hnamed ["sample1", "nope", "none"] (by decide) true
    exact (herror "nope").2 ⟨["sample1"], ["none"], rfl, by decide, by decide⟩
  · obtain ⟨ps, hps, -, hmem, -⟩ := hall false
    exact ⟨ps, hps, fun p hp => ((hmem p).1 hp).2.resolve_right Bool.false_ne_true⟩

end Roster.PresetSet
